/-
Pools and their addresses as clients see them: a pool is made from the texts of
its network, an address is allocated to a VM by its public id and given back.
-/
import VmFleet.Net.PoolNetwork
import VmFleet.Store.Addresses

namespace VmFleet.Allocator

/-- Adds a pool with every address of its network that may be handed out. -/
def createPool (s : Store) (now : Instant) (name cidr gateway : String)
    (description : Option String) : Except Error (Pool × Store) :=
  if (Text.trimChars name.toList).isEmpty then .error (.validation "pool name cannot be empty")
  else match PoolNetwork.read? cidr gateway with
    | .error fault => .error fault.error
    | .ok network =>
      s.insertPool now name network.subnet.text network.gateway.text description network.hosts

/-- Gives the VM an address of the pool, or the one it already holds. -/
def allocate (s : Store) (now : Instant) (pool vmId : String) :
    Except Error (Allocation × Store) :=
  (s.allocate now pool vmId).map fun ((pool, slot), s) => (.of pool slot, s)

/-- Takes back the VM's address; says whether it had one. -/
def release (s : Store) (now : Instant) (vmId : String) : Bool × Store :=
  let (released, s) := s.release now vmId
  (!released.isEmpty, s)

/-- The address the VM holds. -/
def allocation? (s : Store) (vmId : String) : Except Error (Option Allocation) :=
  (s.activeAllocation? vmId).map fun found => found.map fun (pool, slot) => .of pool slot

def findPool (s : Store) (name : String) : Except Error Pool :=
  match s.poolByName? name with
  | some pool => .ok pool
  | none => .error (.unknownPool name)

def stats (s : Store) (name : String) : Except Error PoolStats :=
  (findPool s name).map fun pool =>
    let (total, allocated) := s.poolCounts pool.key
    .of pool total allocated

/-- The addresses of a pool in numeric order. -/
def slots (s : Store) (name : String) (activeOnly : Bool) : Except Error (List Slot) :=
  (findPool s name).map fun pool => s.listSlots pool.key activeOnly

/-- Lets a pool hand out addresses or not. Addresses held already stay held. -/
def setActive (s : Store) (name : String) (active : Bool) : Except Error Store :=
  let (known, s) := s.setPoolActive name active
  if known then .ok s else .error (.unknownPool name)

end VmFleet.Allocator
