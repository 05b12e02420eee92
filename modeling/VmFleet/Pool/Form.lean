/-
The JSON forms of pools, of their addresses and of allocations.
-/
import VmFleet.Json.Record
import VmFleet.Pool.Record
import VmFleet.Vm.Form

namespace VmFleet

namespace Pool

def members : List String :=
  ["id", "name", "cidr", "gateway", "is_active", "description", "created_at"]

def toJson (p : Pool) : Json :=
  .object [
    ("id", .int p.key),
    ("name", .str p.name),
    ("cidr", .str p.cidr),
    ("gateway", .str p.gateway),
    ("is_active", .bool p.active),
    ("description", .ofText? p.description),
    ("created_at", p.createdAt.toJson)]

def ofJson? (v : Json) : Option Pool := do
  let r ← Json.Record.read? members v
  some {
    key := ← r.need? "id" Json.asKey?
    name := ← r.need? "name" Json.asText?
    cidr := ← r.need? "cidr" Json.asText?
    gateway := ← r.need? "gateway" Json.asText?
    active := ← r.need? "is_active" Json.asBool?
    description := ← r.nullable? "description" Json.asText?
    createdAt := ← r.need? "created_at" Instant.ofJson? }

end Pool

/-- A slot as it is written down: its address is any text. -/
structure SlotRecord where
  key : Int
  poolKey : Int
  address : String
  holder : Option String
  active : Bool
  allocatedAt : Option Instant
  releasedAt : Option Instant
  deriving DecidableEq, Repr

def Slot.record (s : Slot) : SlotRecord :=
  ⟨s.key, s.poolKey, s.address.text, s.holder, s.active, s.allocatedAt, s.releasedAt⟩

namespace SlotRecord

def members : List String :=
  ["id", "pool_id", "ip_address", "vm_id", "is_active", "allocated_at", "released_at"]

def toJson (s : SlotRecord) : Json :=
  .object [
    ("id", .int s.key),
    ("pool_id", .int s.poolKey),
    ("ip_address", .str s.address),
    ("vm_id", .ofText? s.holder),
    ("is_active", .bool s.active),
    ("allocated_at", .ofOption Instant.toJson s.allocatedAt),
    ("released_at", .ofOption Instant.toJson s.releasedAt)]

def ofJson? (v : Json) : Option SlotRecord := do
  let r ← Json.Record.read? members v
  some {
    key := ← r.need? "id" Json.asKey?
    poolKey := ← r.need? "pool_id" Json.asKey?
    address := ← r.need? "ip_address" Json.asText?
    holder := ← r.nullable? "vm_id" Json.asText?
    active := ← r.need? "is_active" Json.asBool?
    allocatedAt := ← r.nullable? "allocated_at" Instant.ofJson?
    releasedAt := ← r.nullable? "released_at" Instant.ofJson? }

end SlotRecord

namespace Allocation

def members : List String := ["ip", "gateway", "cidr", "pool"]

def toJson (a : Allocation) : Json :=
  .object [
    ("ip", .str a.address),
    ("gateway", .str a.gateway),
    ("cidr", .str a.cidr),
    ("pool", .str a.pool)]

def ofJson? (v : Json) : Option Allocation := do
  let r ← Json.Record.read? members v
  some {
    address := ← r.need? "ip" Json.asText?
    gateway := ← r.need? "gateway" Json.asText?
    cidr := ← r.need? "cidr" Json.asText?
    pool := ← r.need? "pool" Json.asText? }

end Allocation

end VmFleet
