/-
The store: VM records, pools, the slots of the pools and tasks, each table a
list of rows in the order in which they were inserted, and the keys that the
next rows will get. A key is given out once.
-/
import VmFleet.Error
import VmFleet.Pool.Record
import VmFleet.Store.Stamp
import VmFleet.Task.Record
import VmFleet.Vm.Record

namespace VmFleet

/-- A task as the store holds it. -/
abbrev TaskRow := TaskOf Stamp

structure Store where
  vms : List Vm := []
  pools : List Pool := []
  slots : List Slot := []
  tasks : List TaskRow := []
  nextVm : Int := 1
  nextPool : Int := 1
  nextSlot : Int := 1
  deriving DecidableEq, Repr, Inhabited

namespace Store

def empty : Store := {}

/-- Replaces the rows that satisfy `p`. -/
def updateWhere {α : Type} (p : α → Bool) (f : α → α) (rows : List α) : List α :=
  rows.map fun row => if p row then f row else row

/-- A 64-bit number taken as a signed one. -/
def signed (n : Nat) : Int :=
  if n < bound63 then n else (n : Int) - bound64

/-- At most `limit` rows; a negative limit is none. -/
def limited {α : Type} (limit : Int) (rows : List α) : List α :=
  if limit < 0 then rows else rows.take limit.toNat

/-- The rows from `offset` on, at most `limit` of them; a negative offset counts as zero. -/
def page {α : Type} (offset limit : Int) (rows : List α) : List α :=
  limited limit (rows.drop offset.toNat)

end Store

/-- A row that would repeat a unique key. -/
def Error.unique (columns : String) : Error :=
  .database ("UNIQUE constraint failed: " ++ columns)

/-- The decimal text of an internal key, as messages show it. -/
def keyText (key : Int) : String :=
  String.ofList (if key < 0 then '-' :: Text.decimal key.natAbs else Text.decimal key.toNat)

end VmFleet
