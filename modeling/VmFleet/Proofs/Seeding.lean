/-
A pool is added in one transaction of many writes: its own row and then, one
after the other, a free slot for each host. It is there with all of its slots or
not at all, wherever the writes break off.
-/
import VmFleet.Proofs.AllocatorCalls
import VmFleet.Proofs.Networks

namespace VmFleet

namespace Store

variable {s s' : Store} {now : Instant} {name cidr gateway : String} {description : Option String}
  {hosts : List Ipv4} {poolKey : Int} {pool : Pool} {a : Ipv4}

/-! ## The writes of the transaction -/

/-- The refusal of a slot whose pool has one for its address already. -/
def repeatedAddress : Error :=
  .unique "ip_allocations.pool_id, ip_allocations.ip_address"

/-- Adds one free slot. No two slots of a pool have an address of the same text. -/
def insertSlot (s : Store) (poolKey : Int) (a : Ipv4) : Except Error Store :=
  if s.slots.any fun slot => slot.poolKey == poolKey && slot.address.text == a.text then
    .error repeatedAddress
  else
    .ok { s with
      slots := s.slots ++ [⟨s.nextSlot, poolKey, a, none, false, none, none⟩]
      nextSlot := s.nextSlot + 1 }

/-- Adds a slot for each host up to the first that is refused. What was written up to there is in
the store. -/
def insertSlots (poolKey : Int) : List Ipv4 → Store → Except Error Unit × Store
  | [], s => (.ok (), s)
  | a :: hosts, s =>
    match s.insertSlot poolKey a with
    | .error e => (.error e, s)
    | .ok s => insertSlots poolKey hosts s

/-- The writes that add a pool, in their order, and the store as they leave it. -/
def writePool (s : Store) (now : Instant) (name cidr gateway : String)
    (description : Option String) (hosts : List Ipv4) : Except Error Pool × Store :=
  if (s.poolByName? name).isSome then (.error (.poolAlreadyExists name), s)
  else
    let pool : Pool := ⟨s.nextPool, name, cidr, gateway, true, description, now.cutToMicros⟩
    match insertSlots s.nextPool hosts
        { s with pools := s.pools ++ [pool], nextPool := s.nextPool + 1 } with
    | (.error e, s') => (.error e, s')
    | (.ok (), s') =>
      match s'.pool? s.nextPool with
      | some pool => (.ok pool, s')
      | none => (.error (.unknownPool name), s')

/-- Writes that break off are undone. -/
def transaction {α : Type} (s : Store) (writes : Store → Except Error α × Store) :
    Except Error α × Store :=
  match writes s with
  | (.ok result, s') => (.ok result, s')
  | (.error e, _) => (.error e, s)

/-- A call's answer with the store after it, which is the store before it if it was refused. -/
def answered {α : Type} (s : Store) : Except Error (α × Store) → Except Error α × Store
  | .ok (result, s') => (.ok result, s')
  | .error e => (.error e, s)

/-- The keys of pools are given out once, and a slot is of a pool that was stored. -/
structure PoolKeysFresh (s : Store) : Prop where
  pools : ∀ pool ∈ s.pools, pool.key < s.nextPool
  slots : ∀ slot ∈ s.slots, slot.poolKey < s.nextPool

theorem PoolKeysFresh.slotsOf_new (h : s.PoolKeysFresh) : s.slotsOf s.nextPool = [] := by
  refine List.filter_eq_nil_iff.mpr fun slot hslot => ?_
  have := h.slots slot hslot
  rw [beq_iff_eq]
  omega

/-- The addresses that a pool has slots for. -/
def addressesOf (s : Store) (poolKey : Int) : List Ipv4 :=
  (s.slotsOf poolKey).map (·.address)

theorem insertSlot_of_mem (h : a ∈ s.addressesOf poolKey) : s.insertSlot poolKey a =
    .error repeatedAddress := by
  obtain ⟨slot, mem, rfl⟩ := List.mem_map.mp h
  obtain ⟨mem, owner⟩ := List.mem_filter.mp mem
  refine if_pos (List.any_eq_true.mpr ⟨slot, mem, ?_⟩)
  rw [owner, beq_self_eq_true, Bool.and_self]

theorem insertSlot_of_not_mem (h : a ∉ s.addressesOf poolKey) : s.insertSlot poolKey a =
    .ok { s with
      slots := s.slots ++ freeSlots poolKey s.nextSlot [a]
      nextSlot := s.nextSlot + 1 } := by
  rw [insertSlot, if_neg]
  · rw [freeSlots_cons]
    rfl
  · rw [List.any_eq_true]
    rintro ⟨slot, mem, taken⟩
    rw [Bool.and_eq_true, beq_iff_eq, beq_iff_eq] at taken
    have address : slot.address = a := Ipv4.text_injective taken.2
    exact h (List.mem_map.mpr ⟨slot, List.mem_filter.mpr ⟨mem, by simpa using taken.1⟩, address⟩)

theorem addressesOf_append_freeSlots (poolKey n : Int) (hosts : List Ipv4) :
    addressesOf { s with slots := s.slots ++ freeSlots poolKey s.nextSlot hosts, nextSlot := n }
      poolKey = s.addressesOf poolKey ++ hosts := by
  simp only [addressesOf, slotsOf, List.filter_append, List.map_append, filter_freeSlots,
    freeSlots_addresses]

theorem insertSlots_of_nodup (h : (s.addressesOf poolKey ++ hosts).Nodup) :
    insertSlots poolKey hosts s = (.ok (), { s with
      slots := s.slots ++ freeSlots poolKey s.nextSlot hosts
      nextSlot := s.nextSlot + hosts.length }) := by
  induction hosts generalizing s with
  | nil => simp [insertSlots, freeSlots]
  | cons a hosts ih =>
    have new : a ∉ s.addressesOf poolKey := by
      rw [List.nodup_append] at h
      exact fun mem => h.2.2 a mem a List.mem_cons_self rfl
    rw [insertSlots, insertSlot_of_not_mem new]
    simp only
    rw [ih (by rwa [addressesOf_append_freeSlots, List.append_assoc])]
    have length : s.nextSlot + 1 + (hosts.length : Int) =
        s.nextSlot + ((a :: hosts).length : Int) := by
      rw [List.length_cons]
      omega
    simp only [length, freeSlots_cons, List.append_assoc]
    rfl

theorem insertSlots_of_repeat (distinct : (s.addressesOf poolKey).Nodup)
    (h : ¬ (s.addressesOf poolKey ++ hosts).Nodup) : (insertSlots poolKey hosts s).1 =
      .error repeatedAddress := by
  induction hosts generalizing s with
  | nil => exact absurd distinct (by rwa [List.append_nil] at h)
  | cons a hosts ih =>
    by_cases mem : a ∈ s.addressesOf poolKey
    · rw [insertSlots, insertSlot_of_mem mem]
    · rw [insertSlots, insertSlot_of_not_mem mem]
      refine ih ?_ (by rwa [addressesOf_append_freeSlots, List.append_assoc])
      rw [addressesOf_append_freeSlots]
      exact List.nodup_append.mpr ⟨distinct, List.nodup_singleton a, by
        rintro x hx y hy rfl
        exact mem (List.mem_singleton.mp hy ▸ hx)⟩

/-- The call that adds a pool comes to what its writes come to in a transaction. -/
theorem insertPool_answered (fresh : s.PoolKeysFresh) :
    s.answered (s.insertPool now name cidr gateway description hosts) =
      s.transaction (writePool · now name cidr gateway description hosts) := by
  by_cases named : (s.poolByName? name).isSome = true
  · simp only [insertPool, writePool, transaction, answered, named, if_true]
  simp only [insertPool, writePool, transaction, answered, named, Bool.false_eq_true, if_false]
  generalize eq : (⟨s.nextPool, name, cidr, gateway, true, description, now.cutToMicros⟩ : Pool) =
    pool
  generalize begun : ({ s with pools := s.pools ++ [pool], nextPool := s.nextPool + 1 } : Store) =
    s₁
  have unseeded : s₁.addressesOf s.nextPool = [] := by
    subst begun
    exact List.map_eq_nil_iff.mpr fresh.slotsOf_new
  by_cases distinct : hosts.Nodup
  · have known : (s.pools ++ [pool]).find? (·.key == s.nextPool) = some pool := by
      have before : s.pools.find? (·.key == s.nextPool) = none := by
        refine List.find?_eq_none.mpr fun p hp => ?_
        have := fresh.pools p hp
        rw [beq_iff_eq]
        omega
      rw [List.find?_append, before, Option.none_or, ← eq]
      simp
    rw [insertSlots_of_nodup (by rwa [unseeded]), hasRepeat_eq_false_iff.mpr distinct]
    subst begun
    simp only [Bool.false_eq_true, if_false, pool?, known]
  · have refused : (insertSlots s.nextPool hosts s₁).1 = .error repeatedAddress :=
      insertSlots_of_repeat (by rw [unseeded]; exact List.nodup_nil) (by rwa [unseeded])
    have again := hasRepeat_of_not_nodup distinct
    cases written : insertSlots s.nextPool hosts s₁ with
    | mk answer s₂ =>
      rw [written] at refused
      simp only at refused
      simp only [again, if_true, refused, repeatedAddress]

end Store

/-! ## What adding a pool does -/

/-- Nobody holds the slot or ever held it. -/
def Slot.Unused (slot : Slot) : Prop :=
  slot.active = false ∧ slot.holder = none ∧ slot.allocatedAt = none ∧ slot.releasedAt = none

namespace Store

/-- What a store has more when a pool was added: one active pool with a key and a name of its own,
and one free slot per host. Its slots are listed in numeric order, and nothing else is changed. -/
structure Added (s : Store) (now : Instant) (name cidr gateway : String)
    (description : Option String) (hosts : List Ipv4) (pool : Pool) (s' : Store) : Prop where
  pool_eq : pool = ⟨s.nextPool, name, cidr, gateway, true, description, now.cutToMicros⟩
  newName : ∀ p ∈ s.pools, p.name ≠ name
  newKey : ∀ p ∈ s.pools, p.key ≠ pool.key
  pools : s'.pools = s.pools ++ [pool]
  slots : ∃ added, s'.slots = s.slots ++ added ∧ added.map (·.address) = hosts ∧
    ∀ slot ∈ added, slot.poolKey = pool.key ∧ slot.Unused
  listed : ((s'.listSlots pool.key false).map (·.address)).Perm hosts
  unused : ∀ slot ∈ s'.listSlots pool.key false, slot.Unused
  ascending : (s'.listSlots pool.key false).Pairwise fun a b => a.address < b.address
  others : ∀ key, key ≠ pool.key → s'.slotsOf key = s.slotsOf key
  records : s'.vms = s.vms ∧ s'.tasks = s.tasks
  fresh : s'.PoolKeysFresh

/-- How a call that adds a pool ends, and the store after it. -/
inductive Inserted (s : Store) (now : Instant) (name cidr gateway : String)
    (description : Option String) (hosts : List Ipv4) : Except Error Pool × Store → Prop
  | added {pool s'} (distinct : hosts.Nodup)
      (added : Added s now name cidr gateway description hosts pool s') :
      Inserted s now name cidr gateway description hosts (.ok pool, s')
  | taken (named : ∃ p ∈ s.pools, p.name = name) :
      Inserted s now name cidr gateway description hosts (.error (.poolAlreadyExists name), s)
  | repeated (unnamed : ∀ p ∈ s.pools, p.name ≠ name) (twice : ¬ hosts.Nodup) :
      Inserted s now name cidr gateway description hosts (.error repeatedAddress, s)

/-- How a call that makes a pool of the texts of a network ends, and the store after it. -/
inductive Created (s : Store) (now : Instant) (name cidr gateway : String)
    (description : Option String) : Except Error Pool × Store → Prop
  | blank (blank : Text.trimChars name.toList = []) :
      Created s now name cidr gateway description
        (.error (.validation "pool name cannot be empty"), s)
  | noNetwork {fault} (filled : Text.trimChars name.toList ≠ [])
      (read : PoolNetwork.read? cidr gateway = .error fault) :
      Created s now name cidr gateway description (.error fault.error, s)
  | taken {network} (filled : Text.trimChars name.toList ≠ [])
      (read : PoolNetwork.read? cidr gateway = .ok network)
      (named : ∃ p ∈ s.pools, p.name = name) :
      Created s now name cidr gateway description (.error (.poolAlreadyExists name), s)
  | added {network pool s'} (filled : Text.trimChars name.toList ≠ [])
      (read : PoolNetwork.read? cidr gateway = .ok network)
      (added : Added s now name network.subnet.text network.gateway.text description network.hosts
        pool s')
      (inOrder : (s'.listSlots pool.key false).map (·.address) = network.hosts) :
      Created s now name cidr gateway description (.ok pool, s')

/-- One write to the tables of pools and slots, a pool with any hosts among them, or a write to
other tables. -/
inductive PoolWrite (s : Store) : Store → Prop
  | inserted {now name cidr gateway description hosts pool s'}
      (inserted : s.insertPool now name cidr gateway description hosts = .ok (pool, s')) :
      PoolWrite s s'
  | switched {name active} : PoolWrite s (s.setPoolActive name active).2
  | granted {now name id pool slot s'} (grant : Granted s now name id pool slot s') : PoolWrite s s'
  | released {now id} : PoolWrite s (s.release now id).2
  | elsewhere {s'} (pools : s'.pools = s.pools) (slots : s'.slots = s.slots)
      (next : s'.nextPool = s.nextPool) : PoolWrite s s'

/-- The stores that writes make of an empty one. -/
inductive Grown : Store → Prop
  | empty : Grown .empty
  | write {s s'} (grown : Grown s) (write : PoolWrite s s') : Grown s'

variable {s s' : Store} {now : Instant} {name cidr gateway : String} {description : Option String}
  {hosts : List Ipv4} {pool : Pool} {slot : Slot}

theorem unused_of_mem_freeSlots {poolKey first : Int} (h : slot ∈ freeSlots poolKey first hosts) :
    slot.Unused := by
  obtain ⟨i, hi, rfl⟩ := List.mem_mapIdx.mp h
  exact ⟨rfl, rfl, rfl, rfl⟩

theorem poolByName?_eq_none_iff : s.poolByName? name = none ↔ ∀ p ∈ s.pools, p.name ≠ name := by
  simp [poolByName?, List.find?_eq_none]

theorem listSlots_perm (s : Store) (key : Int) : (s.listSlots key false).Perm (s.slotsOf key) := by
  have all : ((s.slotsOf key).filter fun slot => !false || slot.active) = s.slotsOf key :=
    List.filter_eq_self.mpr fun _ _ => rfl
  exact (List.mergeSort_perm _ _).trans (List.Perm.of_eq all)

theorem listSlots_sorted (s : Store) (key : Int) :
    (s.listSlots key false).Pairwise fun a b => a.address ≤ b.address :=
  Ipv4.mergeSort_sorted Slot.address _

theorem inserted_of_ok (fresh : s.PoolKeysFresh)
    (h : s.insertPool now name cidr gateway description hosts = .ok (pool, s')) :
    hosts.Nodup ∧ Added s now name cidr gateway description hosts pool s' := by
  have distinct : hosts.Nodup := by
    by_contra twice
    simp only [insertPool, hasRepeat_of_not_nodup twice, if_true] at h
    split at h <;> cases h
  refine ⟨distinct, ?_⟩
  obtain ⟨unnamed, eq, rfl⟩ := insertPool_ok h
  have key : pool.key = s.nextPool := by rw [eq]
  generalize after : ({ s with
    pools := s.pools ++ [pool]
    slots := s.slots ++ freeSlots s.nextPool s.nextSlot hosts
    nextPool := s.nextPool + 1
    nextSlot := s.nextSlot + hosts.length } : Store) = s'
  have own : s'.slotsOf pool.key = freeSlots s.nextPool s.nextSlot hosts := by
    have before : s.slots.filter (·.poolKey == s.nextPool) = [] := fresh.slotsOf_new
    subst after
    rw [key, slotsOf, List.filter_append, before, filter_freeSlots, List.nil_append]
  have rows := own ▸ s'.listSlots_perm pool.key
  have listed := rows.map (·.address)
  rw [freeSlots_addresses] at listed
  -- The addresses differ, so what does not descend ascends.
  have ascending : (s'.listSlots pool.key false).Pairwise fun a b => a.address < b.address :=
    (s'.listSlots_sorted pool.key).imp₂ (fun a b le ne => Nat.lt_of_le_of_ne le fun same =>
      ne (Ipv4.ext_value same)) (List.pairwise_map.mp (listed.nodup_iff.mpr distinct))
  subst after
  refine ⟨eq, poolByName?_eq_none_iff.mp unnamed, ?_, rfl, ⟨_, rfl, freeSlots_addresses _ _ _, ?_⟩,
    listed, ?_, ascending, ?_, ⟨rfl, rfl⟩, ?_, ?_⟩
  · intro p hp
    have := fresh.pools p hp
    omega
  · exact fun slot mem => ⟨(mem_freeSlots mem).1.trans key.symm, unused_of_mem_freeSlots mem⟩
  · exact fun slot mem => unused_of_mem_freeSlots (rows.mem_iff.mp mem)
  · intro k other
    simp only [slotsOf, List.filter_append]
    rw [filter_freeSlots_of_ne _ _ (key ▸ other), List.append_nil]
  · intro p hp
    rcases List.mem_append.mp hp with hp | hp
    · exact Int.lt_add_one_of_le (Int.le_of_lt (fresh.pools p hp))
    · rw [List.mem_singleton.mp hp, key]
      exact Int.lt_succ s.nextPool
  · intro slot hslot
    rcases List.mem_append.mp hslot with hslot | hslot
    · exact Int.lt_add_one_of_le (Int.le_of_lt (fresh.slots slot hslot))
    · rw [(mem_freeSlots hslot).1]
      exact Int.lt_succ s.nextPool

/-! ## The keys of pools -/

theorem PoolKeysFresh.updateSlots (h : s.PoolKeysFresh) {p : Slot → Bool} {f : Slot → Slot}
    (known : ∀ x ∈ s.slots, (f x).poolKey < s.nextPool) :
    ({ s with slots := updateWhere p f s.slots } : Store).PoolKeysFresh where
  pools := h.pools
  slots slot hslot := by
    obtain ⟨x, hx, rfl⟩ := mem_updateWhere.mp hslot
    split
    · exact known x hx
    · exact h.slots x hx

theorem PoolKeysFresh.write (h : s.PoolKeysFresh) (w : PoolWrite s s') : s'.PoolKeysFresh := by
  cases w with
  | inserted inserted => exact (inserted_of_ok h inserted).2.fresh
  | switched =>
    refine ⟨fun pool hpool => ?_, h.slots⟩
    obtain ⟨p, hp, rfl⟩ := mem_updateWhere.mp hpool
    split <;> exact h.pools p hp
  | granted grant =>
    cases grant with
    | again => exact h
    | @fresh _ free _ _ _ member => exact h.updateSlots fun _ _ => h.slots free member
  | released => exact h.updateSlots h.slots
  | elsewhere pools slots next =>
    exact ⟨fun pool hpool => next ▸ h.pools pool (pools ▸ hpool),
      fun slot hslot => next ▸ h.slots slot (slots ▸ hslot)⟩

/-- No write gives out the key of a pool again. -/
theorem Grown.poolKeysFresh (h : s.Grown) : s.PoolKeysFresh := by
  induction h with
  | empty => exact ⟨nofun, nofun⟩
  | write _ write ih => exact ih.write write

/-! ## How the calls end -/

theorem inserted (fresh : s.PoolKeysFresh) :
    Inserted s now name cidr gateway description hosts
      (s.answered (s.insertPool now name cidr gateway description hosts)) := by
  cases called : s.insertPool now name cidr gateway description hosts with
  | ok result =>
    obtain ⟨distinct, added⟩ := inserted_of_ok fresh called
    exact .added distinct added
  | error e =>
    simp only [insertPool] at called
    split at called
    · next named =>
      cases called
      obtain ⟨p, found⟩ := Option.isSome_iff_exists.mp named
      exact .taken ⟨p, List.mem_of_find?_eq_some found, by simpa using List.find?_some found⟩
    next unnamed =>
    split at called
    · next again =>
      cases called
      refine .repeated (poolByName?_eq_none_iff.mp (by simpa using unnamed)) fun distinct => ?_
      rw [hasRepeat_eq_false_iff.mpr distinct] at again
      cases again
    · cases called

theorem created (fresh : s.PoolKeysFresh) :
    Created s now name cidr gateway description
      (s.answered (Allocator.createPool s now name cidr gateway description)) := by
  unfold Allocator.createPool
  split
  · next blank => exact .blank (List.isEmpty_iff.mp blank)
  next filled =>
  have filled : Text.trimChars name.toList ≠ [] := fun blank => filled (List.isEmpty_iff.mpr blank)
  split
  · next fault read => exact .noNetwork filled read
  next network read =>
  have ended : Inserted s now name network.subnet.text network.gateway.text description
    network.hosts _ := inserted fresh
  revert ended
  generalize s.answered _ = ending
  intro ended
  cases ended with
  | added distinct added =>
    -- The hosts of a network ascend already.
    have inOrder := added.listed.eq_of_pairwise
      (fun a b _ _ ab ba => absurd ba (Nat.lt_asymm (show a.value < b.value from ab)))
      (List.pairwise_map.mpr added.ascending) network.hosts_ascending
    exact .added filled read added inOrder
  | taken named => exact .taken filled read named
  | repeated _ twice => exact absurd network.hosts_nodup twice

/-- **A pool is added with one free slot for each host it is given, or nothing is changed.** The
call comes to its row-by-row writes in one transaction; it is refused where the name is taken or a
host is listed twice. A pool made of the texts of a network is refused where the name is blank, the
texts name no network or the name is taken, and never for its hosts. -/
theorem pools_added_whole (fresh : s.PoolKeysFresh) (now : Instant) (name cidr gateway : String)
    (description : Option String) (hosts : List Ipv4) :
    s.answered (s.insertPool now name cidr gateway description hosts) =
        s.transaction (writePool · now name cidr gateway description hosts) ∧
      Inserted s now name cidr gateway description hosts
        (s.answered (s.insertPool now name cidr gateway description hosts)) ∧
      Created s now name cidr gateway description
        (s.answered (Allocator.createPool s now name cidr gateway description)) ∧
      ∀ columns, Allocator.createPool s now name cidr gateway description ≠
        .error (.unique columns) := by
  refine ⟨insertPool_answered fresh, inserted fresh, created fresh, fun columns refused => ?_⟩
  have ending : Created s now name cidr gateway description _ := created fresh
  rw [refused] at ending
  cases ending

/-- Two hosts out of order, and then the same hosts with one of them listed again. -/
theorem unsorted_hosts_added :
    (∃ pool s', Added .empty ⟨1, 0⟩ "lab" "10.0.0.0/29" "10.0.0.1" none
      [.ofNat 167772164, .ofNat 167772162] pool s') ∧
    (transaction .empty (writePool · ⟨1, 0⟩ "lab" "10.0.0.0/29" "10.0.0.1" none
      [.ofNat 167772164, .ofNat 167772162, .ofNat 167772164])).2 = .empty := by
  have fresh := Grown.empty.poolKeysFresh
  have unnamed : ∀ p ∈ Store.empty.pools, p.name ≠ "lab" := by decide
  constructor
  · have ended := (pools_added_whole fresh ⟨1, 0⟩ "lab" "10.0.0.0/29" "10.0.0.1" none
      [.ofNat 167772164, .ofNat 167772162]).2.1
    generalize answered _ _ = ending at ended
    cases ended with
    | added _ added => exact ⟨_, _, added⟩
    | taken named =>
      obtain ⟨p, hp, same⟩ := named
      exact absurd same (unnamed p hp)
    | repeated _ twice => exact absurd (by decide) twice
  · obtain ⟨rows, ended, -⟩ := pools_added_whole fresh ⟨1, 0⟩ "lab" "10.0.0.0/29" "10.0.0.1" none
      [.ofNat 167772164, .ofNat 167772162, .ofNat 167772164]
    rw [rows] at ended
    generalize transaction _ _ = ending at ended ⊢
    cases ended with
    | added distinct _ => exact absurd distinct (by decide)
    | taken => rfl
    | repeated => rfl

end Store

end VmFleet
