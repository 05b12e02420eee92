/-
VMs that ask a pool for addresses one after the other. As long as the pool has
free addresses, each VM that holds none receives the lowest of them by number, so
that the addresses go out in numeric order; when they are gone every call is
refused with the pool's size, and changes nothing.
-/
import VmFleet.Proofs.Creating
import Mathlib.Data.List.Sort

namespace VmFleet

namespace Store

/-- The slots of a pool that nobody holds. -/
def unheld (s : Store) (poolKey : Int) : List Slot :=
  s.slots.filter fun slot => slot.poolKey == poolKey && !slot.active

/-- The addresses of a pool that nobody holds, in numeric order. -/
def freeAddresses (s : Store) (poolKey : Int) : List Ipv4 :=
  ((s.unheld poolKey).map (·.address)).mergeSort fun a b => a ≤ b

variable {s : Store} {key : Int} {id id' name : String} {now : Instant} {slot : Slot} {pool : Pool}

theorem mem_unheld : slot ∈ s.unheld key ↔
    slot ∈ s.slots ∧ slot.poolKey = key ∧ slot.active = false := by
  simp only [unheld, List.mem_filter, Bool.and_eq_true, beq_iff_eq, Bool.not_eq_true']

theorem filter_slotsOf (s : Store) (key : Int) :
    ((s.slotsOf key).filter fun slot => !slot.active) = s.unheld key := by
  rw [slotsOf, List.filter_filter, unheld]
  exact List.filter_congr fun x _ => Bool.and_comm _ _

theorem length_freeAddresses : (s.freeAddresses key).length = (s.unheld key).length := by
  rw [freeAddresses, List.length_mergeSort, List.length_map]

theorem freeAddresses_eq_nil : s.freeAddresses key = [] ↔ s.unheld key = [] := by
  rw [← List.length_eq_zero_iff, length_freeAddresses, List.length_eq_zero_iff]

theorem freeAddresses_sorted (s : Store) (key : Int) :
    (s.freeAddresses key).Pairwise fun a b => a ≤ b :=
  Ipv4.mergeSort_sorted id _

/-- They are the free addresses in the only order in which they ascend. -/
theorem freeAddresses_eq {addresses : List Ipv4} (sorted : addresses.Pairwise fun a b => a ≤ b)
    (rows : ((s.unheld key).map (·.address)).Perm addresses) : s.freeAddresses key = addresses :=
  ((List.mergeSort_perm _ _).trans rows).eq_of_pairwise
    (fun _ _ _ _ ab ba => Ipv4.ext_value (Nat.le_antisymm ab ba)) (s.freeAddresses_sorted key) sorted

theorem length_slotsOf : (s.slotsOf key).length = (s.unheld key).length + (s.poolCounts key).2 := by
  rw [← filter_slotsOf, ← List.countP_eq_length_filter,
    List.length_eq_countP_add_countP fun slot : Slot => slot.active, Nat.add_comm, poolCounts]
  simp

/-! ## One call -/

theorem allocate_unheld (now : Instant) (known : s.poolByName? name = some pool)
    (active : pool.active = true) (bare : s.activeSlot? id = none) :
    s.allocate now name id = match lowest? (s.unheld pool.key) with
      | some slot => .ok ((pool, taken slot id now), s.give slot id now)
      | none => .error (.exhausted pool.name (s.poolCounts pool.key).2 (s.poolCounts pool.key).1) := by
  simp only [allocate, known, active, bare, Bool.not_true, Bool.false_eq_true, if_false,
    filter_slotsOf]
  cases lowest? (s.unheld pool.key) <;> rfl

theorem keys_give : (s.give slot id now).slots.map (·.key) = s.slots.map (·.key) := by
  refine map_updateWhere _ fun x _ same => ?_
  rw [beq_iff_eq] at same
  exact same.symm

theorem activeSlot?_give (keys : (s.slots.map (·.key)).Nodup) (member : slot ∈ s.slots)
    (free : slot.active = false) (bare : s.activeSlot? id = none) :
    (s.give slot id now).activeSlot? id' =
      if id' = id then some (taken slot id now) else s.activeSlot? id' := by
  obtain ⟨front, back, before, after⟩ := slots_give id now keys member
  split
  · next same =>
    -- No slot before the one that is given away is the VM's.
    have none : front.find? (fun x => x.holder == some id' && x.active) = none := by
      rw [same, List.find?_eq_none]
      intro x hx held
      simp only [Bool.and_eq_true, beq_iff_eq] at held
      exact activeSlot?_eq_none.mp bare x (before ▸ List.mem_append_left _ hx) held.2 held.1
    have hit : ((taken slot id now).holder == some id' && (taken slot id now).active) = true := by
      simp [taken, same]
    simp only [activeSlot?, after, List.find?_append, none, Option.none_or, List.find?_cons, hit]
  · next other =>
    have passed : ((taken slot id now).holder == some id' && (taken slot id now).active) = false := by
      simpa [taken] using fun same => other same.symm
    have idle : (slot.holder == some id' && slot.active) = false := by simp [free]
    simp only [activeSlot?, before, after, List.find?_append, List.find?_cons, passed, idle]

theorem length_slotsOf_give (key : Int) (id : String) (now : Instant)
    (keys : (s.slots.map (·.key)).Nodup) (member : slot ∈ s.slots) :
    ((s.give slot id now).slotsOf key).length = (s.slotsOf key).length := by
  obtain ⟨front, back, before, after⟩ := slots_give id now keys member
  simp only [slotsOf, before, after, List.filter_append, List.filter_cons, taken]
  split <;> simp

/-- The slot that is given away is the one that is free no longer. -/
theorem unheld_give (id : String) (now : Instant) (keys : (s.slots.map (·.key)).Nodup)
    (member : slot ∈ s.unheld key) :
    (s.unheld key).Perm (slot :: (s.give slot id now).unheld key) := by
  obtain ⟨there, owner, free⟩ := mem_unheld.mp member
  obtain ⟨front, back, before, after⟩ := slots_give id now keys there
  have mine : (slot.poolKey == key && !slot.active) = true := by simp [owner, free]
  have gone : ((taken slot id now).poolKey == key && !(taken slot id now).active) = false := by
    simp [taken]
  simp only [unheld, before, after, List.filter_append, List.filter_cons, mine, gone, if_true,
    Bool.false_eq_true, if_false]
  exact List.perm_middle

/-- Once the lowest of the free addresses is given away, the others are left. -/
theorem freeAddresses_give (id : String) (now : Instant) (keys : (s.slots.map (·.key)).Nodup)
    (lowest : lowest? (s.unheld key) = some slot) :
    s.freeAddresses key = slot.address :: (s.give slot id now).freeAddresses key := by
  have rows := unheld_give id now keys (lowest?_mem lowest)
  have first : ∀ a ∈ (s.give slot id now).freeAddresses key, slot.address ≤ a := by
    intro a ha
    rw [freeAddresses, List.mem_mergeSort, List.mem_map] at ha
    obtain ⟨x, hx, rfl⟩ := ha
    exact lowest?_le lowest x (rows.mem_iff.mpr (List.mem_cons_of_mem slot hx))
  refine freeAddresses_eq (List.pairwise_cons.mpr ⟨first, freeAddresses_sorted _ key⟩) ?_
  exact (rows.map (·.address)).trans ((List.mergeSort_perm _ _).symm.cons _)

end Store

/-! ## A list of calls -/

/-- What a VM is told that receives the address of the pool. -/
def Pool.allocation (pool : Pool) (address : Ipv4) : Allocation :=
  ⟨address.text, pool.gateway, pool.cidr, pool.name⟩

/-- The refusal of a pool of which all addresses are held. -/
def Error.allHeld (pool : Pool) (size : Nat) : Error :=
  .exhausted pool.name size size

namespace Allocator

open Lifecycle (labPool)

/-- The answers to VMs that ask the pool of this name for an address one after the other, each at
its time, and the store afterwards. -/
def allocateAll (name : String) :
    List (String × Instant) → Store → List (Except Error Allocation) × Store
  | [], s => ([], s)
  | (id, now) :: rest, s =>
    let first := allocate s now name id
    let (answers, t) := allocateAll name rest (AllocatorCall.committed s first)
    (first.map (·.1) :: answers, t)

/-- What comes of the calls of VMs that hold nothing: the first of them receive the free addresses
in numeric order, one each, and hold them from then on; the others are refused. -/
structure Fills (s : Store) (pool : Pool) (calls : List (String × Instant))
    (answers : List (Except Error Allocation)) (t : Store) : Prop where
  answers : answers =
    ((s.freeAddresses pool.key).take calls.length).map (.ok <| pool.allocation ·) ++
      List.replicate (calls.length - (s.freeAddresses pool.key).length)
        (.error (.allHeld pool (s.slotsOf pool.key).length))
  holders : (calls.take (s.freeAddresses pool.key).length).map
      (fun c => (t.activeSlot? c.1).map (·.address)) =
    ((s.freeAddresses pool.key).take calls.length).map some
  others : ∀ id ∉ calls.map (·.1), t.activeSlot? id = s.activeSlot? id
  left : t.freeAddresses pool.key = (s.freeAddresses pool.key).drop calls.length

variable {s : Store} {name : String} {pool : Pool} {calls : List (String × Instant)}

theorem allocateAll_full (known : s.poolByName? name = some pool) (active : pool.active = true)
    (full : s.unheld pool.key = []) (bare : ∀ c ∈ calls, s.activeSlot? c.1 = none) :
    allocateAll name calls s = (List.replicate calls.length
      (.error (.allHeld pool (s.slotsOf pool.key).length)), s) := by
  induction calls with
  | nil => rfl
  | cons call rest ih =>
    obtain ⟨id, now⟩ := call
    have size : (s.poolCounts pool.key).2 = (s.slotsOf pool.key).length := by
      rw [Store.length_slotsOf, full, List.length_nil, Nat.zero_add]
    have refused : allocate s now name id =
        .error (.allHeld pool (s.slotsOf pool.key).length) := by
      rw [allocate, Store.allocate_unheld now known active (bare _ List.mem_cons_self), full, size]
      rfl
    have rest := ih fun c hc => bare c (List.mem_cons_of_mem _ hc)
    simp only [allocateAll, refused, AllocatorCall.committed, rest, Except.map, List.length_cons,
      List.replicate_succ]

theorem Fills.full (full : s.unheld pool.key = []) : Fills s pool calls
    (List.replicate calls.length (.error (.allHeld pool (s.slotsOf pool.key).length))) s := by
  have gone := Store.freeAddresses_eq_nil.mpr full
  exact ⟨by simp [gone], by simp [gone], fun _ _ => rfl, by simp [gone]⟩

/-- The VM that calls first receives the lowest free address, and the others those that are left. -/
theorem Fills.given {id : String} {now : Instant} {slot : Slot}
    {answers : List (Except Error Allocation)} {t : Store}
    (h : Fills (s.give slot id now) pool calls answers t) (keys : (s.slots.map (·.key)).Nodup)
    (lowest : Store.lowest? (s.unheld pool.key) = some slot) (bare : s.activeSlot? id = none)
    (new : id ∉ calls.map (·.1)) :
    Fills s pool ((id, now) :: calls) (.ok (pool.allocation slot.address) :: answers) t := by
  obtain ⟨there, -, free⟩ := Store.mem_unheld.mp (Store.lowest?_mem lowest)
  have next := Store.freeAddresses_give id now keys lowest
  have size := Store.length_slotsOf_give pool.key id now keys there
  have holds : ∀ x, (s.give slot id now).activeSlot? x =
      if x = id then some (Store.taken slot id now) else s.activeSlot? x :=
    fun x => Store.activeSlot?_give keys there free bare
  have mine : (t.activeSlot? id).map (·.address) = some slot.address := by
    rw [h.others id new, holds id, if_pos rfl]
    rfl
  refine ⟨?_, ?_, fun x hx => ?_, ?_⟩
  · rw [next, ← size, h.answers]
    simp
  · rw [next]
    simpa [mine] using h.holders
  · obtain ⟨other, later⟩ : x ≠ id ∧ x ∉ calls.map (·.1) := by simpa using hx
    rw [h.others x later, holds x, if_neg other]
  · rw [next, h.left]
    rfl

/-- The calls that are refused could as well not be made. -/
theorem allocateAll_fills (keys : (s.slots.map (·.key)).Nodup)
    (known : s.poolByName? name = some pool) (active : pool.active = true)
    (ids : (calls.map (·.1)).Nodup) (bare : ∀ c ∈ calls, s.activeSlot? c.1 = none) :
    Fills s pool calls (allocateAll name calls s).1 (allocateAll name calls s).2 ∧
      (allocateAll name calls s).2 =
        (allocateAll name (calls.take (s.freeAddresses pool.key).length) s).2 := by
  induction calls generalizing s with
  | nil => exact ⟨⟨by simp [allocateAll], by simp, fun _ _ => rfl, rfl⟩, by rw [List.take_nil]⟩
  | cons call rest ih =>
    obtain ⟨id, now⟩ := call
    have unheld := bare (id, now) List.mem_cons_self
    cases lowest : Store.lowest? (s.unheld pool.key) with
    | none =>
      have full : s.unheld pool.key = [] := by
        by_contra some
        have found := Store.lowest?_isSome some
        rw [lowest] at found
        cases found
      rw [allocateAll_full known active full bare]
      refine ⟨.full full, ?_⟩
      rw [Store.freeAddresses_eq_nil.mpr full]
      rfl
    | some slot =>
      obtain ⟨there, -, free⟩ := Store.mem_unheld.mp (Store.lowest?_mem lowest)
      obtain ⟨new, ids⟩ := List.nodup_cons.mp ids
      have answered : allocate s now name id =
          .ok (pool.allocation slot.address, s.give slot id now) := by
        rw [allocate, Store.allocate_unheld now known active unheld, lowest]
        rfl
      have goesOn : ∀ more, allocateAll name ((id, now) :: more) s =
          (.ok (pool.allocation slot.address) :: (allocateAll name more (s.give slot id now)).1,
            (allocateAll name more (s.give slot id now)).2) := fun more => by
        simp only [allocateAll, answered, AllocatorCall.committed, Except.map]
      have bare' : ∀ c ∈ rest, (s.give slot id now).activeSlot? c.1 = none := by
        intro c hc
        have other : c.1 ≠ id := fun same => new (List.mem_map.mpr ⟨c, hc, same⟩)
        rw [Store.activeSlot?_give keys there free unheld, if_neg other]
        exact bare c (List.mem_cons_of_mem _ hc)
      obtain ⟨fills, stays⟩ := ih (s := s.give slot id now)
        (by rw [Store.keys_give]; exact keys) known ids bare'
      rw [goesOn rest, Store.freeAddresses_give id now keys lowest,
        List.length_cons, List.take_succ_cons, goesOn]
      exact ⟨fills.given keys lowest unheld new, stays⟩

/-- **A pool fills from its lowest free address up, and then refuses.** In any store, let distinct
VMs of which none holds an address ask an active pool one after the other, in any order and at any
times. As many of the calls succeed as there are free addresses and callers; the k-th that succeeds
receives the k-th lowest free address by number and holds it afterwards. The others are refused with
the number of all addresses of the pool as that of the held ones, and change nothing. The pool's
statistics told beforehand how many are free. -/
theorem pool_fills_in_order (keys : (s.slots.map (·.key)).Nodup)
    (known : s.poolByName? name = some pool) (active : pool.active = true)
    (ids : (calls.map (·.1)).Nodup) (bare : ∀ c ∈ calls, s.activeSlot? c.1 = none) :
    Fills s pool calls (allocateAll name calls s).1 (allocateAll name calls s).2 ∧
      (allocateAll name calls s).1.countP (·.isOk) =
        min (s.freeAddresses pool.key).length calls.length ∧
      (allocateAll name calls s).2 =
        (allocateAll name (calls.take (s.freeAddresses pool.key).length) s).2 ∧
      ∃ stats, Allocator.stats s name = .ok stats ∧
        stats.available = (s.freeAddresses pool.key).length ∧
        stats.total = (s.slotsOf pool.key).length := by
  obtain ⟨fills, stays⟩ := allocateAll_fills keys known active ids bare
  refine ⟨fills, ?_, stays, ?_⟩
  · rw [fills.answers, List.countP_append, List.countP_map, List.countP_replicate]
    simp [Except.isOk, Except.toBool, Function.comp_def, Nat.min_comm]
  · refine ⟨.of pool (s.slotsOf pool.key).length (s.poolCounts pool.key).2, ?_, ?_, rfl⟩
    · simp only [stats, findPool, known, Except.map]
      rfl
    · rw [Store.length_freeAddresses, PoolStats.of, Store.length_slotsOf]
      exact Nat.add_sub_cancel _ _

/-- Of three addresses the highest was given back and the middle one is held. -/
def reusedPool : Store where
  pools := [labPool]
  slots := [⟨1, 1, .ofNat 167772170, some "srv-8", false, some ⟨0, 0⟩, some ⟨1, 0⟩⟩,
    ⟨2, 1, .ofNat 167772162, none, false, none, none⟩,
    ⟨3, 1, .ofNat 167772169, some "srv-9", true, some ⟨0, 0⟩, none⟩]
  nextPool := 2
  nextSlot := 4

/-- The first of three VMs receives the lowest address by number, which is not the first by its
text, and the last is refused. -/
theorem reusedPool_fills :
    (allocateAll "lab" [("srv-1", ⟨5, 0⟩), ("srv-3", ⟨6, 0⟩), ("srv-2", ⟨7, 0⟩)] reusedPool).1 =
      [.ok (labPool.allocation (.ofNat 167772162)), .ok (labPool.allocation (.ofNat 167772170)),
        .error (.exhausted "lab" 3 3)] ∧
      (Ipv4.ofNat 167772170).text < (Ipv4.ofNat 167772162).text := by
  have fills : Fills reusedPool labPool
      [("srv-1", ⟨5, 0⟩), ("srv-3", ⟨6, 0⟩), ("srv-2", ⟨7, 0⟩)]
      (allocateAll "lab" _ reusedPool).1 (allocateAll "lab" _ reusedPool).2 :=
    (pool_fills_in_order (by decide) rfl rfl (by decide) (by decide)).1
  have free : reusedPool.freeAddresses 1 = [.ofNat 167772162, .ofNat 167772170] :=
    Store.freeAddresses_eq (by decide) (by decide)
  refine ⟨fills.answers.trans ?_, by decide +kernel⟩
  rw [show labPool.key = 1 from rfl, free]
  rfl

end Allocator

end VmFleet
