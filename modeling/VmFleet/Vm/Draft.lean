/-
What a client asks for when it wants a VM, and the rules such a request must
keep. Of several broken rules the first in the order of `Draft.fault?` is
reported.
-/
import VmFleet.Error

namespace VmFleet

/-- A request for a new VM. -/
structure Draft where
  name : String
  description : Option String := none
  vcpus : Nat := 1
  memoryMb : Nat := 512
  owner : String
  /-- A kernel on the host to be used in place of the tool's own. -/
  kernelPath : Option String := none
  deriving DecidableEq, Repr, Inhabited

/-- A broken rule. -/
inductive DraftFault where
  | nameLength
  | nameShape
  | descriptionLength
  | vcpus
  | memory
  | noOwner
  deriving DecidableEq, Repr

namespace DraftFault

def message : DraftFault → String
  | .nameLength => "name must be 1-64 characters"
  | .nameShape => "name must start/end with alphanumeric, can contain hyphens in between"
  | .descriptionLength => "description must be at most 500 characters"
  | .vcpus => "vcpu_count must be between 1 and 32"
  | .memory => "memory_mb must be between 128 and 32768"
  | .noOwner => "owner cannot be empty"

def error (f : DraftFault) : Error :=
  .validation f.message

end DraftFault

namespace Draft

/-- Letters, digits and hyphens of ASCII, with no hyphen at either end. -/
def nameShaped (cs : List Char) : Bool :=
  cs.all (fun c => c.isAlphanum || c == '-') &&
    cs.head?.any Char.isAlphanum && cs.getLast?.any Char.isAlphanum

/-- A name has 1 to 64 bytes. -/
def nameFault? (name : String) : Option DraftFault :=
  if name.isEmpty || 64 < name.utf8ByteSize then some .nameLength
  else if nameShaped name.toList then none
  else some .nameShape

/-- A description has at most 500 characters. -/
def descriptionFault? (description : String) : Option DraftFault :=
  if 500 < description.length then some .descriptionLength else none

/-- The first rule the request breaks. -/
def fault? (d : Draft) : Option DraftFault :=
  (nameFault? d.name) <|>
  (d.description.bind descriptionFault?) <|>
  (if 1 ≤ d.vcpus ∧ d.vcpus ≤ 32 then none else some .vcpus) <|>
  (if 128 ≤ d.memoryMb ∧ d.memoryMb ≤ 32768 then none else some .memory) <|>
  (if d.owner.isEmpty then some .noOwner else none)

end Draft

/-- Reports a broken rule, if there is one, as an error. -/
def checkRule (fault? : Option DraftFault) : Except Error Unit :=
  match fault? with
  | some f => .error f.error
  | none => .ok ()

end VmFleet
