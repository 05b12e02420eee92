/-
The stored state as one JSON text: the tables row by row, a task by its columns, the
keys that come next, and whether changes go to a log. A text that is no such record
is not a store.
-/
import VmFleet.Pool.Form
import VmFleet.Store.Columns

namespace VmFleet.Store

def slotOfJson? (v : Json) : Option Slot := do
  let r ← SlotRecord.ofJson? v
  let address ← Ipv4.read? r.address
  some ⟨r.key, r.poolKey, address, r.holder, r.active, r.allocatedAt, r.releasedAt⟩

def taskRowToJson (row : TaskRow) : Json :=
  .arr (row.cells.map Cell.toJson)

def taskRowOfJson? (v : Json) : Option TaskRow :=
  (Json.asList? Cell.ofJson? v).bind TaskRow.ofCells?

def members : List String :=
  ["vms", "pools", "addresses", "tasks", "next_vm", "next_pool", "next_address", "logged"]

def toJson (s : Store) (logged : Bool) : Json :=
  .object [
    ("vms", .arr (s.vms.map Vm.toJson)),
    ("pools", .arr (s.pools.map Pool.toJson)),
    ("addresses", .arr (s.slots.map fun slot => slot.record.toJson)),
    ("tasks", .arr (s.tasks.map taskRowToJson)),
    ("next_vm", .int s.nextVm),
    ("next_pool", .int s.nextPool),
    ("next_address", .int s.nextSlot),
    ("logged", .bool logged)]

def ofJson? (v : Json) : Option (Store × Bool) := do
  let r ← Json.Record.read? members v
  let store : Store := {
    vms := ← r.need? "vms" (Json.asList? Vm.ofJson?)
    pools := ← r.need? "pools" (Json.asList? Pool.ofJson?)
    slots := ← r.need? "addresses" (Json.asList? slotOfJson?)
    tasks := ← r.need? "tasks" (Json.asList? taskRowOfJson?)
    nextVm := ← r.need? "next_vm" Json.asKey?
    nextPool := ← r.need? "next_pool" Json.asKey?
    nextSlot := ← r.need? "next_address" Json.asKey? }
  some (store, ← r.need? "logged" Json.asBool?)

/-- The store that a file holds, and whether its changes go to a log. -/
def load? (contents : String) : Option (Store × Bool) :=
  (Json.parse? contents).bind ofJson?

/-- The text of a file that holds the store. -/
def save (s : Store) (logged : Bool) : String :=
  (s.toJson logged).text

end VmFleet.Store
