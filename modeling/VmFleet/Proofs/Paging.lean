/-
Pages of an owner's VMs. A page is the piece of one listing that its offset and
size name, so pages that follow on each other are the listing: every VM of the
owner once, in the order of the listing, and none of anyone else.
-/
import VmFleet.Proofs.Ownership

namespace VmFleet

namespace Store

variable {α : Type} {s : Store} {owner : String} {offset limit : Nat}

theorem signed_of_lt {n : Nat} (h : n < bound63) : signed n = n :=
  if_pos h

theorem page_eq (hoffset : offset < bound63) (hlimit : limit < bound63) (rows : List α) :
    page (signed offset) (signed limit) rows = (rows.drop offset).take limit := by
  have natural : ¬ (limit : Int) < 0 := by omega
  rw [signed_of_lt hoffset, signed_of_lt hlimit, page, limited, if_neg natural, Int.toNat_natCast,
    Int.toNat_natCast]

/-- The first pages of a list are its beginning. -/
theorem flatMap_pages (rows : List α) (size count : Nat) :
    ((List.range count).flatMap fun i => (rows.drop (i * size)).take size) =
      rows.take (count * size) := by
  induction count with
  | zero => rw [Nat.zero_mul, List.take_zero, List.range_zero, List.flatMap_nil]
  | succ count ih =>
    rw [List.range_succ, List.flatMap_append, ih, List.flatMap_singleton, Nat.succ_mul,
      List.take_add]

theorem vmsOfOwner_perm (s : Store) (owner : String) :
    (s.vmsOfOwner owner).Perm (s.vms.filter (·.owner == owner)) :=
  List.mergeSort_perm _ _

theorem vmsOfOwner_sorted (s : Store) (owner : String) :
    (s.vmsOfOwner owner).Pairwise fun a b =>
      b.createdAt < a.createdAt ∨ a.createdAt = b.createdAt ∧ b.key ≤ a.key :=
  (List.pairwise_mergeSort newestFirst_trans newestFirst_total _).imp newestFirst_iff.mp

end Store

namespace Client

open Store

variable {s : Store} {owner : String} {offset limit : Nat}

theorem listVms_eq (h : offset < bound63) :
    listVms s owner offset limit =
      (((s.vmsOfOwner owner).drop offset).take (min (max limit 1) maxPage),
        (s.vmsOfOwner owner).length) := by
  have small : min (max limit 1) maxPage < bound63 :=
    Nat.lt_of_le_of_lt (Nat.min_le_right _ _) (by decide)
  rw [listVms, listVmsByOwner, page_eq h small]

/-- **Pages make up the listing.** The listing of an owner holds each of the owner's VMs as often as
the store does and no other, the youngest first and of one age the one with the higher key. A page
asked for at any size has that size held between 1 and 100. At an offset of 63 bits it is so many
VMs of the listing from the offset on, and tells how many the listing has. So a page at or past that
number is empty, and the pages that follow on each other from the first VM on are the listing, once
they have room for it. -/
theorem pages_make_listing (s : Store) (owner : String) (limit : Nat) :
    let listing := s.vmsOfOwner owner
    let size := min (max limit 1) 100
    listing.Perm (s.vms.filter (·.owner == owner)) ∧
      (listing.Pairwise fun a b =>
        b.createdAt < a.createdAt ∨ a.createdAt = b.createdAt ∧ b.key ≤ a.key) ∧
      (∀ offset < bound63,
        listVms s owner offset limit = ((listing.drop offset).take size, listing.length)) ∧
      (∀ offset < bound63, listing.length ≤ offset → (listVms s owner offset limit).1 = []) ∧
      ∀ count, (∀ i < count, i * size < bound63) → listing.length ≤ count * size →
        ((List.range count).flatMap fun i => (listVms s owner (i * size) limit).1) = listing := by
  intro listing size
  have page : ∀ offset < bound63,
      listVms s owner offset limit = ((listing.drop offset).take size, listing.length) :=
    fun offset h => listVms_eq h
  refine ⟨s.vmsOfOwner_perm owner, s.vmsOfOwner_sorted owner, page, fun offset h past => ?_,
    fun count within room => ?_⟩
  · rw [page offset h, List.drop_eq_nil_of_le past, List.take_nil]
  · have pages : ((List.range count).flatMap fun i => (listVms s owner (i * size) limit).1) =
        (List.range count).flatMap fun i => (listing.drop (i * size)).take size :=
      List.flatMap_congr fun i hi => by rw [page _ (within i (List.mem_range.mp hi))]
    rw [pages, flatMap_pages, List.take_of_length_le room]

/-- Three VMs of one owner, two of them of one age, and one of another. -/
def twoOwners : Store where
  vms := [vm 1 "alice" 5, vm 2 "bob" 6, vm 3 "alice" 5, vm 4 "alice" 7]
  nextVm := 5
where
  vm (key : Int) (owner : String) (born : Int) : Vm :=
    { (default : Vm) with key, owner, createdAt := ⟨born, 0⟩ }

/-- Two pages of two hold the three, and the second tells three as well. -/
theorem twoOwners_pages :
    ((List.range 2).flatMap fun i => (listVms twoOwners "alice" (i * 2) 2).1) =
        [twoOwners.vm 4 "alice" 7, twoOwners.vm 3 "alice" 5, twoOwners.vm 1 "alice" 5] ∧
      (listVms twoOwners "alice" 2 2).2 = 3 ∧ (listVms twoOwners "alice" 4 2).1 = [] := by
  obtain ⟨perm, sorted, page, past, pages⟩ := pages_make_listing twoOwners "alice" 2
  have keys : (twoOwners.vms.map (·.key)).Nodup := by decide
  have hers : (twoOwners.vms.filter (·.owner == "alice")).Perm
      [twoOwners.vm 4 "alice" 7, twoOwners.vm 3 "alice" 5, twoOwners.vm 1 "alice" 5] := by
    decide +kernel
  have known : ∀ a ∈ twoOwners.vms.filter (·.owner == "alice"), a ∈ twoOwners.vms :=
    fun a => List.mem_of_mem_filter
  have listing : twoOwners.vmsOfOwner "alice" =
      [twoOwners.vm 4 "alice" 7, twoOwners.vm 3 "alice" 5, twoOwners.vm 1 "alice" 5] := by
    refine List.Perm.eq_of_pairwise (fun a b ha hb ab ba => ?_) sorted (by decide)
      (perm.trans hers)
    exact List.inj_on_of_nodup_map keys (known a (perm.mem_iff.mp ha))
      (known b (hers.mem_iff.mpr hb))
      (newestFirst_antisymm (newestFirst_iff.mpr ab) (newestFirst_iff.mpr ba))
  rw [listing] at page past pages
  exact ⟨pages 2 (by decide) (by decide), congrArg Prod.snd (page 2 (by decide)),
    past 4 (by decide) (by decide)⟩

end Client

end VmFleet
