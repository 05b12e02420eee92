/-
The tables of pools and of their slots. A slot is free unless it is active; an
active slot belongs to its holder, and no VM holds more than one.
-/
import VmFleet.Store.Basic

namespace VmFleet.Store

def poolByName? (s : Store) (name : String) : Option Pool :=
  s.pools.find? (·.name == name)

def pool? (s : Store) (key : Int) : Option Pool :=
  s.pools.find? (·.key == key)

def slotsOf (s : Store) (poolKey : Int) : List Slot :=
  s.slots.filter (·.poolKey == poolKey)

/-- An address stands twice in the list. -/
def hasRepeat (hosts : List Ipv4) : Bool :=
  let sorted := hosts.mergeSort (fun a b => a ≤ b)
  (sorted.zip sorted.tail).any fun (a, b) => a == b

/-- A free slot for each address, with keys from `first` on. -/
def freeSlots (poolKey first : Int) (hosts : List Ipv4) : List Slot :=
  hosts.mapIdx fun i a => ⟨first + i, poolKey, a, none, false, none, none⟩

/-- Adds an active pool with a free slot per host. -/
def insertPool (s : Store) (now : Instant) (name cidr gateway : String)
    (description : Option String) (hosts : List Ipv4) : Except Error (Pool × Store) :=
  if (s.poolByName? name).isSome then .error (.poolAlreadyExists name)
  else if hasRepeat hosts then
    .error (.unique "ip_allocations.pool_id, ip_allocations.ip_address")
  else
    let pool : Pool := ⟨s.nextPool, name, cidr, gateway, true, description, now.cutToMicros⟩
    .ok (pool, { s with
      pools := s.pools ++ [pool]
      slots := s.slots ++ freeSlots s.nextPool s.nextSlot hosts
      nextPool := s.nextPool + 1
      nextSlot := s.nextSlot + hosts.length })

/-- All pools by name. -/
def listPools (s : Store) : List Pool :=
  s.pools.mergeSort fun a b => a.name ≤ b.name

/-- Activates or deactivates a pool; says whether there is one of this name. -/
def setPoolActive (s : Store) (name : String) (active : Bool) : Bool × Store :=
  (s.pools.any (·.name == name),
    { s with pools := updateWhere (·.name == name) (fun p => { p with active := active }) s.pools })

/-- How many addresses a pool has, and how many of them are held. -/
def poolCounts (s : Store) (poolKey : Int) : Nat × Nat :=
  let slots := s.slotsOf poolKey
  (slots.length, slots.countP (·.active))

/-- A pool's slots, or only the held ones, by address. -/
def listSlots (s : Store) (poolKey : Int) (activeOnly : Bool) : List Slot :=
  ((s.slotsOf poolKey).filter fun slot => !activeOnly || slot.active).mergeSort
    fun a b => a.address ≤ b.address

/-- The slot that a VM holds. -/
def activeSlot? (s : Store) (vmId : String) : Option Slot :=
  s.slots.find? fun slot => slot.holder == some vmId && slot.active

/-- The slot with the lowest address. -/
def lowest? (slots : List Slot) : Option Slot :=
  slots.foldl (fun best slot =>
    match best with
    | none => some slot
    | some b => if slot.address < b.address then some slot else some b) none

/-- The slot as its new holder has it. -/
def taken (slot : Slot) (vmId : String) (now : Instant) : Slot :=
  { slot with
    active := true
    holder := some vmId
    allocatedAt := some now.cutToMicros
    releasedAt := none }

/-- The slot when its holder has given it back; it remembers the holder. -/
def freed (slot : Slot) (now : Instant) : Slot :=
  { slot with active := false, releasedAt := some now.cutToMicros }

/-- A slot with the pool it is of. -/
def withPool (s : Store) (slot : Slot) : Except Error (Pool × Slot) :=
  match s.pool? slot.poolKey with
  | some pool => .ok (pool, slot)
  | none => .error (.unknownPool (keyText slot.poolKey))

/-- Binds the lowest free address of an active pool to the VM. A VM that holds an address keeps
it, whatever pool is named. -/
def allocate (s : Store) (now : Instant) (poolName vmId : String) :
    Except Error ((Pool × Slot) × Store) :=
  match s.poolByName? poolName with
  | none => .error (.unknownPool poolName)
  | some pool =>
    if !pool.active then .error (.unknownPool poolName)
    else match s.activeSlot? vmId with
      | some slot => (s.withPool slot).map fun found => (found, s)
      | none =>
        match lowest? ((s.slotsOf pool.key).filter fun slot => !slot.active) with
        | none =>
          let (total, allocated) := s.poolCounts pool.key
          .error (.exhausted pool.name allocated total)
        | some slot =>
          let slot' := taken slot vmId now
          .ok ((pool, slot'), { s with
            slots := updateWhere (·.key == slot.key) (fun _ => slot') s.slots })

/-- Gives back whatever the VM holds; the addresses given back. -/
def release (s : Store) (now : Instant) (vmId : String) : List Ipv4 × Store :=
  let held (slot : Slot) : Bool := slot.holder == some vmId && slot.active
  ((s.slots.filter held).map (·.address),
    { s with slots := updateWhere held (fun slot => freed slot now) s.slots })

/-- What the VM holds, with its pool. -/
def activeAllocation? (s : Store) (vmId : String) : Except Error (Option (Pool × Slot)) :=
  match s.activeSlot? vmId with
  | none => .ok none
  | some slot => (s.withPool slot).map some

end VmFleet.Store
