/-
JSON values as they were written: the members of an object keep their order and
may repeat. A text with an unpaired surrogate escape has no characters to stand
for it and is kept apart, and so is a number that is not written as an integer:
both may stand where nothing reads them.
-/

namespace VmFleet

inductive Json where
  | null
  | bool (b : Bool)
  | int (n : Int)
  /-- A number with a fraction or an exponent, or a negative zero. -/
  | real
  | str (s : String)
  /-- A text holding an unpaired surrogate escape. -/
  | brokenStr
  | arr (items : List Json)
  /-- A member whose key holds an unpaired surrogate escape has no key. -/
  | obj (members : List (Option String × Json))
  deriving Inhabited

namespace Json

/-- An object with proper keys. -/
def object (members : List (String × Json)) : Json :=
  .obj (members.map fun (k, v) => (some k, v))

def ofNat (n : Nat) : Json := .int n

/-- A value that may be absent, written as null when it is. -/
def ofOption {α : Type} (f : α → Json) : Option α → Json
  | some a => f a
  | none => .null

def ofText? : Option String → Json :=
  ofOption .str

end Json

end VmFleet
