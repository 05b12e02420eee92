/-
Reading records from JSON values. A record is an object whose known members
stand at most once, in any order and beside members nobody knows; or an array
that gives the members in their declared order, in which trailing members may
be left out if they have a default.
-/
import VmFleet.Bounds
import VmFleet.Json.Value

namespace VmFleet.Json

def asText? : Json → Option String
  | .str s => some s
  | _ => none

def asBool? : Json → Option Bool
  | .bool b => some b
  | _ => none

/-- An integer from `lo` up to, but not including, `hi`. -/
def asInt? (lo hi : Int) : Json → Option Int
  | .int n => if lo ≤ n ∧ n < hi then some n else none
  | _ => none

/-- A whole number below `bound`. -/
def asNat? (bound : Nat) (v : Json) : Option Nat :=
  (asInt? 0 bound v).map Int.toNat

/-- A signed 64-bit integer. -/
def asKey? : Json → Option Int :=
  asInt? (-bound63) bound63

/-- A value or null. -/
def asNullable? {α : Type} (read : Json → Option α) : Json → Option (Option α)
  | .null => some none
  | v => (read v).map some

def asList? {α : Type} (read : Json → Option α) : Json → Option (List α)
  | .arr items => items.mapM read
  | _ => none

/-- One of a set of names: the name as a text, or an object with it as the only key and null as
its value. -/
def asName? {α : Type} (named : String → Option α) : Json → Option α
  | .str s => named s
  | .obj [(some s, .null)] => named s
  | _ => none

/-- The members found of a record. -/
structure Record where
  members : List (String × Json)
  /-- Given in declared order, without keys. -/
  positional : Bool

namespace Record

def hasRepeat : List String → Bool
  | [] => false
  | k :: rest => rest.contains k || hasRepeat rest

/-- The record of the declared members that a value gives. -/
def read? (declared : List String) : Json → Option Record
  | .obj members =>
    if members.any (·.1.isNone) then none
    else
      let known := members.filterMap fun
        | (some k, v) => if declared.contains k then some (k, v) else none
        | (none, _) => none
      if hasRepeat (known.map (·.1)) then none else some ⟨known, false⟩
  | .arr items =>
    if items.length ≤ declared.length then some ⟨declared.zip items, true⟩ else none
  | _ => none

def find? (r : Record) (key : String) : Option Json :=
  r.members.lookup key

/-- A member that must be there. -/
def need? {α : Type} (r : Record) (key : String) (read : Json → Option α) : Option α :=
  (r.find? key).bind read

/-- A member that may be null, and that an object may leave out. -/
def nullable? {α : Type} (r : Record) (key : String) (read : Json → Option α) :
    Option (Option α) :=
  match r.find? key with
  | some v => asNullable? read v
  | none => if r.positional then none else some none

/-- A member with a default. -/
def orElse? {α : Type} (r : Record) (key : String) (read : Json → Option α) (fallback : α) :
    Option α :=
  match r.find? key with
  | some v => read v
  | none => some fallback

end Record

end VmFleet.Json
