/-
Address pools and the addresses in them. A pool has one slot per address it may
hand out; slots are made with the pool and used again and again.
-/
import VmFleet.Net.Address
import VmFleet.Time.Instant
import VmFleet.Pool.Utilization

namespace VmFleet

/-- A named range of addresses. -/
structure Pool where
  key : Int
  name : String
  cidr : String
  /-- Never handed out. -/
  gateway : String
  /-- Addresses are handed out only while the pool is active. -/
  active : Bool
  description : Option String
  createdAt : Instant
  deriving DecidableEq, Repr, Inhabited

/-- One address of a pool. -/
structure Slot where
  key : Int
  poolKey : Int
  address : Ipv4
  /-- Public id of the VM that holds the address or held it last. -/
  holder : Option String
  /-- The holder has the address now. -/
  active : Bool
  allocatedAt : Option Instant
  releasedAt : Option Instant
  deriving DecidableEq, Repr, Inhabited

/-- What an allocation tells the VM it is for. -/
structure Allocation where
  address : String
  gateway : String
  cidr : String
  pool : String
  deriving DecidableEq, Repr, Inhabited

namespace Allocation

def of (pool : Pool) (slot : Slot) : Allocation :=
  ⟨slot.address.text, pool.gateway, pool.cidr, pool.name⟩

end Allocation

/-- How much of a pool is in use. -/
structure PoolStats where
  poolName : String
  cidr : String
  gateway : String
  active : Bool
  total : Nat
  allocated : Nat
  available : Nat
  /-- Share in use, in hundredths of a percent. -/
  utilization : Nat
  deriving DecidableEq, Repr

def PoolStats.of (pool : Pool) (total allocated : Nat) : PoolStats where
  poolName := pool.name
  cidr := pool.cidr
  gateway := pool.gateway
  active := pool.active
  total := total
  allocated := allocated
  available := total - allocated
  utilization := Utilization.hundredths allocated total

/-- The share in use as a percentage with two places. -/
def PoolStats.utilizationText (s : PoolStats) : String :=
  String.ofList
    (Text.decimal (s.utilization / 100) ++ '.' :: Text.fixedDigits 2 (s.utilization % 100))

end VmFleet
