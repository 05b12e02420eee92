/-
The slots of the pools through the slot that a VM holds: what an allocation and
a release do to it, and that no VM holds two.
-/
import VmFleet.Pool.Allocator
import VmFleet.Proofs.Rows

namespace VmFleet

namespace Store

/-- Slot keys are distinct and the next one is new; a held slot has a holder and the time since when
it is held, and no VM holds two. -/
structure SlotsSound (s : Store) : Prop where
  keys : (s.slots.map (·.key)).Nodup
  fresh : ∀ slot ∈ s.slots, slot.key < s.nextSlot
  held : ∀ slot ∈ s.slots, slot.active = true →
    slot.holder.isSome ∧ slot.allocatedAt.isSome ∧ slot.releasedAt = none
  exclusive : ∀ a ∈ s.slots, ∀ b ∈ s.slots, a.active = true → b.active = true →
    a.holder = b.holder → a = b

theorem SlotsSound.congr {s t : Store} (h : s.SlotsSound) (slots : t.slots = s.slots)
    (next : t.nextSlot = s.nextSlot) : t.SlotsSound := by
  obtain ⟨keys, fresh, held, exclusive⟩ := h
  rw [← slots] at keys fresh held exclusive
  rw [← next] at fresh
  exact ⟨keys, fresh, held, exclusive⟩

/-- The text of the address that a VM holds. -/
def addressOf (s : Store) (vmId : String) : Option String :=
  (s.activeSlot? vmId).map (·.address.text)

variable {s s' : Store} {now : Instant} {id id' poolName : String} {slot : Slot} {pool : Pool}

theorem activeSlot?_mem (h : s.activeSlot? id = some slot) :
    slot ∈ s.slots ∧ slot.active = true ∧ slot.holder = some id := by
  have hit := List.find?_some h
  simp only [Bool.and_eq_true, beq_iff_eq] at hit
  exact ⟨List.mem_of_find?_eq_some h, hit.2, hit.1⟩

theorem activeSlot?_eq_none :
    s.activeSlot? id = none ↔ ∀ slot ∈ s.slots, slot.active = true → slot.holder ≠ some id := by
  simp only [activeSlot?, List.find?_eq_none, Bool.and_eq_true, beq_iff_eq, not_and]
  exact ⟨fun h x hx ha hh => h x hx hh ha, fun h x hx hh ha => h x hx ha hh⟩

theorem SlotsSound.activeSlot?_of_mem (h : s.SlotsSound) (hslot : slot ∈ s.slots)
    (active : slot.active = true) (holder : slot.holder = some id) :
    s.activeSlot? id = some slot := by
  cases found : s.activeSlot? id with
  | none => exact absurd holder (activeSlot?_eq_none.mp found slot hslot active)
  | some other =>
    obtain ⟨hother, oactive, oholder⟩ := activeSlot?_mem found
    rw [h.exclusive other hother slot hslot oactive active (oholder.trans holder.symm)]

/-- Of all slots a VM holds just the one it is found to hold. -/
theorem SlotsSound.held_beq (h : s.SlotsSound) (found : s.activeSlot? id = some slot) :
    ∀ x ∈ s.slots, (x.holder == some id && x.active) = (x == slot) := by
  intro x hx
  obtain ⟨hslot, active, holder⟩ := activeSlot?_mem found
  by_cases hxs : x = slot
  · subst hxs
    simp [active, holder]
  · have miss : ¬(x.holder = some id ∧ x.active = true) := fun ⟨xh, xa⟩ =>
      hxs (h.exclusive x hx slot hslot xa active (xh.trans holder.symm))
    rw [Bool.eq_iff_iff]
    simp only [Bool.and_eq_true, beq_iff_eq, miss, hxs]

theorem SlotsSound.filter_held (h : s.SlotsSound) (found : s.activeSlot? id = some slot) :
    s.slots.filter (fun x => x.holder == some id && x.active) = [slot] := by
  have nodup : s.slots.Nodup := List.Nodup.of_map _ h.keys
  rw [List.filter_congr (h.held_beq found), List.filter_beq,
    List.count_eq_one_of_mem nodup (activeSlot?_mem found).1, List.replicate_one]

theorem empty_slotsSound : Store.empty.SlotsSound where
  keys := List.nodup_nil
  fresh _ h := absurd h List.not_mem_nil
  held _ h := absurd h List.not_mem_nil
  exclusive _ h := absurd h List.not_mem_nil

/-! ## Giving back -/

theorem activeSlot?_release :
    (s.release now id).2.activeSlot? id' = if id' = id then none else s.activeSlot? id' := by
  split
  · next same =>
    subst same
    rw [activeSlot?_eq_none]
    intro x hx active holder
    simp only [release, mem_updateWhere] at hx
    obtain ⟨y, hy, rfl⟩ := hx
    split at active
    · simp [freed] at active
    · next hp =>
      rw [if_neg hp] at holder
      exact hp (by simp [holder, active])
  · next other =>
    refine find?_updateWhere_of_passed fun x _ hx => ?_
    simp only [Bool.and_eq_true, beq_iff_eq] at hx
    refine ⟨?_, by simp [freed]⟩
    simp only [hx.1, hx.2, Bool.and_true, beq_eq_false_iff_ne, ne_eq, Option.some.injEq]
    exact fun h => other h.symm

theorem SlotsSound.release (h : s.SlotsSound) : (s.release now id).2.SlotsSound := by
  have keys : ((s.release now id).2.slots.map (·.key)) = s.slots.map (·.key) :=
    map_updateWhere _ fun _ _ _ => rfl
  -- A slot that is held afterwards was not touched.
  have untouched : ∀ x ∈ (s.release now id).2.slots, x.active = true → x ∈ s.slots := by
    intro x hx active
    simp only [Store.release, mem_updateWhere] at hx
    obtain ⟨y, hy, rfl⟩ := hx
    split at active
    · simp [freed] at active
    · next hp => rwa [if_neg hp]
  refine ⟨keys ▸ h.keys, ?_, ?_, ?_⟩
  · intro x hx
    have hk : x.key ∈ s.slots.map (·.key) := keys ▸ List.mem_map_of_mem hx
    obtain ⟨y, hy, same⟩ := List.mem_map.mp hk
    rw [← same]
    exact h.fresh y hy
  · intro x hx active
    exact h.held x (untouched x hx active) active
  · intro a ha b hb aactive bactive same
    exact h.exclusive a (untouched a ha aactive) b (untouched b hb bactive) aactive bactive same

/-! ## Taking -/

theorem lowest?_mem {slots : List Slot} (h : lowest? slots = some slot) : slot ∈ slots := by
  refine mem_of_foldl_pick (fun best row => ?_) h
  cases best with
  | none => exact .inr rfl
  | some b =>
    dsimp only
    split
    · exact .inr rfl
    · exact .inl rfl

theorem lowest?_isSome {slots : List Slot} (h : slots ≠ []) : (lowest? slots).isSome := by
  refine foldl_pick_isSome (fun best slot => ?_) h
  cases best with
  | none => rfl
  | some b =>
    dsimp only
    split <;> rfl

/-- No slot has a lower address. -/
theorem lowest?_le {slots : List Slot} (h : lowest? slots = some slot) :
    ∀ x ∈ slots, slot.address ≤ x.address := by
  intro x hx
  have none_lower := foldl_pick_first (fun a b : Slot => decide (a.address < b.address))
    (fun _ => rfl) (fun best row => by simp only [decide_eq_true_eq]) (fun a b => ?_)
    (fun a b c => ?_) h x hx
  · exact Nat.le_of_not_lt (of_decide_eq_false none_lower)
  · simp only [decide_eq_true_eq, decide_eq_false_iff_not]
    exact fun less => Nat.not_lt.mpr (Nat.le_of_lt less)
  · simp only [decide_eq_false_iff_not]
    exact fun ab bc => Nat.not_lt.mpr (Nat.le_trans (Nat.not_lt.mp ab) (Nat.not_lt.mp bc))

/-- What an allocation grants: the slot the VM holds already, with nothing changed, or a free slot
of the named pool, which it takes. Either way the named pool is there and active. -/
inductive Granted (s : Store) (now : Instant) (poolName id : String) :
    Pool → Slot → Store → Prop
  | again {named pool slot} (known : s.poolByName? poolName = some named)
      (active : named.active = true) (holds : s.activeSlot? id = some slot)
      (owner : s.pool? slot.poolKey = some pool) : Granted s now poolName id pool slot s
  | fresh {pool free} (known : s.poolByName? poolName = some pool) (active : pool.active = true)
      (holds : s.activeSlot? id = none) (member : free ∈ s.slots)
      (owner : free.poolKey = pool.key) (unheld : free.active = false) :
      Granted s now poolName id pool (taken free id now)
        { s with slots := updateWhere (·.key == free.key) (fun _ => taken free id now) s.slots }

theorem allocate_granted (h : s.allocate now poolName id = .ok ((pool, slot), s')) :
    Granted s now poolName id pool slot s' := by
  simp only [allocate] at h
  split at h
  · cases h
  next named known =>
  split at h
  · cases h
  next active =>
  have active : named.active = true := by simpa using active
  split at h
  · next held holds =>
    simp only [withPool] at h
    split at h
    · next owner found =>
      simp only [Except.map, Except.ok.injEq, Prod.mk.injEq] at h
      obtain ⟨⟨rfl, rfl⟩, rfl⟩ := h
      exact .again known active holds found
    · cases h
  · next holds =>
    split at h
    · cases h
    next free lowest =>
    simp only [Except.ok.injEq, Prod.mk.injEq] at h
    obtain ⟨⟨rfl, rfl⟩, rfl⟩ := h
    have member := lowest?_mem lowest
    simp only [slotsOf, List.mem_filter, beq_iff_eq, Bool.not_eq_true'] at member
    exact .fresh known active holds member.1.1 member.1.2 member.2

namespace Granted

theorem slots_only (h : Granted s now poolName id pool slot s') :
    s' = { s with slots := s'.slots } := by
  cases h <;> rfl

theorem holds_self (h : Granted s now poolName id pool slot s') :
    s'.activeSlot? id = some slot := by
  cases h with
  | again _ _ holds _ => exact holds
  | @fresh _ free _ _ holds member _ _ =>
    simp only [activeSlot?]
    have hit : (taken free id now).holder == some id && (taken free id now).active := by
      simp [taken]
    have none : ∀ x ∈ s.slots, ¬(x.holder == some id && x.active) = true := by
      simpa [activeSlot?] using holds
    -- Nothing is found before the slot that is taken, and every row with its key is now that slot.
    have search : ∀ rows : List Slot, (∀ x ∈ rows, x ∈ s.slots) → free ∈ rows →
        (updateWhere (·.key == free.key) (fun _ => taken free id now) rows).find?
          (fun x => x.holder == some id && x.active) = some (taken free id now) := by
      intro rows
      induction rows with
      | nil => intro _ h; cases h
      | cons x rest ih =>
        intro sub hfree
        simp only [updateWhere, List.map_cons, List.find?_cons] at ih ⊢
        by_cases hx : (x.key == free.key) = true
        · simp only [hx, if_true, hit]
        · have miss := none x (sub x List.mem_cons_self)
          have hrest : free ∈ rest := by
            rcases List.mem_cons.mp hfree with rfl | h
            · simp at hx
            · exact h
          simp only [hx, Bool.false_eq_true, if_false, miss]
          exact ih (fun y hy => sub y (List.mem_cons_of_mem x hy)) hrest
    exact search s.slots (fun _ h => h) member

theorem holds_other (h : Granted s now poolName id pool slot s') (sound : s.SlotsSound)
    (other : id' ≠ id) : s'.activeSlot? id' = s.activeSlot? id' := by
  cases h with
  | again => rfl
  | @fresh _ free _ _ _ member _ unheld =>
    refine find?_updateWhere_of_passed fun x hx hk => ?_
    have same : x = free := List.inj_on_of_nodup_map sound.keys hx member (by simpa using hk)
    subst same
    refine ⟨by simp [unheld], ?_⟩
    simp only [taken, Bool.and_true, beq_eq_false_iff_ne, ne_eq, Option.some.injEq]
    exact fun h => other h.symm

theorem slotsSound (h : Granted s now poolName id pool slot s') (sound : s.SlotsSound) :
    s'.SlotsSound := by
  cases h with
  | again => exact sound
  | @fresh _ free _ _ holds member _ _ =>
    have keys : (updateWhere (·.key == free.key) (fun _ => taken free id now) s.slots).map (·.key) =
        s.slots.map (·.key) := by
      refine map_updateWhere _ fun x _ hx => ?_
      simpa [taken] using Eq.symm (by simpa using hx)
    -- A row afterwards is the taken slot or a row from before.
    have row : ∀ x ∈ updateWhere (·.key == free.key) (fun _ => taken free id now) s.slots,
        x = taken free id now ∨ x ∈ s.slots := by
      intro x hx
      obtain ⟨y, hy, rfl⟩ := mem_updateWhere.mp hx
      split
      · exact .inl rfl
      · exact .inr hy
    have none := activeSlot?_eq_none.mp holds
    refine ⟨keys ▸ sound.keys, ?_, ?_, ?_⟩
    · intro x hx
      rcases row x hx with rfl | hx
      · exact sound.fresh free member
      · exact sound.fresh x hx
    · intro x hx active
      rcases row x hx with rfl | hx
      · exact ⟨rfl, rfl, rfl⟩
      · exact sound.held x hx active
    · intro a ha b hb aactive bactive same
      rcases row a ha with rfl | ha <;> rcases row b hb with rfl | hb
      · rfl
      · exact absurd same.symm (none b hb bactive)
      · exact absurd same (none a ha aactive)
      · exact sound.exclusive a ha b hb aactive bactive same

end Granted

/-! ## Counting -/

/-- How many slots of a pool nobody holds. -/
def freeIn (s : Store) (poolKey : Int) : Nat :=
  (s.slotsOf poolKey).countP (!·.active)

/-- Who holds the slots of a pool. -/
def holdersIn (s : Store) (poolKey : Int) : List (Option String) :=
  ((s.slotsOf poolKey).filter (·.active)).map (·.holder)

theorem length_holdersIn (k : Int) : (s.holdersIn k).length = (s.poolCounts k).2 := by
  rw [holdersIn, List.length_map, poolCounts, List.countP_eq_length_filter]

theorem freeIn_eq (k : Int) :
    s.freeIn k = s.slots.countP fun slot => !slot.active && slot.poolKey == k := by
  rw [freeIn, slotsOf, List.countP_filter]

theorem SlotsSound.holdersIn_nodup (h : s.SlotsSound) (k : Int) : (s.holdersIn k).Nodup := by
  have slots : s.slots.Nodup := List.Nodup.of_map _ h.keys
  refine ((slots.filter _).filter _).map_on fun a ha b hb same => ?_
  simp only [slotsOf, List.mem_filter] at ha hb
  exact h.exclusive a ha.1.1 b hb.1.1 ha.2 hb.2 same

theorem SlotsSound.mem_holdersIn (h : s.SlotsSound) {k : Int} {holder : Option String} :
    holder ∈ s.holdersIn k ↔
      ∃ id, holder = some id ∧ (s.activeSlot? id).map (·.poolKey) = some k := by
  simp only [holdersIn, slotsOf, List.mem_map, List.mem_filter, beq_iff_eq, Option.map_eq_some_iff]
  constructor
  · rintro ⟨slot, ⟨⟨hslot, owner⟩, active⟩, rfl⟩
    obtain ⟨id, holder⟩ := Option.isSome_iff_exists.mp (h.held slot hslot active).1
    exact ⟨id, holder, slot, h.activeSlot?_of_mem hslot active holder, owner⟩
  · rintro ⟨id, rfl, slot, found, owner⟩
    obtain ⟨hslot, active, holder⟩ := activeSlot?_mem found
    exact ⟨slot, ⟨⟨hslot, owner⟩, active⟩, holder⟩

/-- Where every VM has a slot of the same pool in both stores, or of none, each pool has as many
held slots in both. -/
theorem SlotsSound.held_eq {t : Store} (hs : s.SlotsSound) (ht : t.SlotsSound)
    (same : ∀ id, (t.activeSlot? id).map (·.poolKey) = (s.activeSlot? id).map (·.poolKey))
    (k : Int) : (t.poolCounts k).2 = (s.poolCounts k).2 := by
  have holders : (t.holdersIn k).Perm (s.holdersIn k) :=
    (List.perm_ext_iff_of_nodup (ht.holdersIn_nodup k) (hs.holdersIn_nodup k)).mpr fun holder => by
      simp only [ht.mem_holdersIn, hs.mem_holdersIn, same]
  rw [← length_holdersIn, ← length_holdersIn, holders.length_eq]

theorem freeIn_le_release (k : Int) : s.freeIn k ≤ (s.release now id).2.freeIn k := by
  rw [freeIn_eq, freeIn_eq]
  refine countP_le_updateWhere fun x _ held free => ?_
  simp only [Bool.and_eq_true] at held
  simp [held.2] at free

/-- A grant leaves each pool with at most one free slot less. -/
theorem Granted.freeIn_le (h : Granted s now poolName id pool slot s') (sound : s.SlotsSound)
    (k : Int) : s.freeIn k ≤ s'.freeIn k + 1 := by
  cases h with
  | again => exact Nat.le_succ _
  | @fresh _ free _ _ _ member _ _ =>
    have one : s.slots.countP (·.key == free.key) ≤ 1 := by
      have once := List.nodup_iff_count_le_one.mp sound.keys free.key
      rwa [List.count, List.countP_map] at once
    rw [freeIn_eq, freeIn_eq]
    exact Nat.le_trans countP_le_updateWhere_add (Nat.add_le_add_left one _)

/-- A slot that is granted to a VM without one is of the named pool. -/
theorem Granted.poolKey_eq (h : Granted s now poolName id pool slot s')
    (bare : s.activeSlot? id = none) : slot.poolKey = pool.key := by
  cases h with
  | again _ _ holds _ => cases bare.symm.trans holds
  | fresh _ _ _ _ owner _ => exact owner

end Store

namespace Allocator

variable {s s' : Store} {now : Instant} {id poolName : String} {allocation : Allocation}

theorem allocate_granted (h : allocate s now poolName id = .ok (allocation, s')) :
    ∃ pool slot, Store.Granted s now poolName id pool slot s' ∧ allocation = .of pool slot := by
  simp only [allocate] at h
  cases found : s.allocate now poolName id with
  | error e => simp [found, Except.map] at h
  | ok r =>
    obtain ⟨⟨pool, slot⟩, s₁⟩ := r
    simp only [found, Except.map, Except.ok.injEq, Prod.mk.injEq] at h
    obtain ⟨rfl, rfl⟩ := h
    exact ⟨pool, slot, Store.allocate_granted found, rfl⟩

end Allocator

end VmFleet
