/-
The statement that changes the status of a VM:
`UPDATE vms SET status = ?, updated_at = ?, … WHERE id = ? AND status IN (?, …)`.
Which columns it sets depends on the patch, and how many statuses it names on the
caller. Its parameters have no names: the arguments stand in a list of their own,
and each goes to the parameter in its place.
-/
import VmFleet.Store.Columns
import VmFleet.Vm.Record

namespace VmFleet

/-- A nullable column that a patch may write. -/
inductive VmField where
  | address
  | host
  | kernelPath
  | rootfsPath
  | errorMessage
  deriving DecidableEq, Repr

namespace VmField

/-- In the order in which a statement writes them. -/
def all : List VmField :=
  [.address, .host, .kernelPath, .rootfsPath, .errorMessage]

def set (vm : Vm) (value : Option String) : VmField → Vm
  | .address => { vm with address := value }
  | .host => { vm with host := value }
  | .kernelPath => { vm with kernelPath := value }
  | .rootfsPath => { vm with rootfsPath := value }
  | .errorMessage => { vm with errorMessage := value }

end VmField

/-- What a patch does to a column. -/
def VmPatch.field (p : VmPatch) : VmField → FieldWrite
  | .address => p.address
  | .host => p.host
  | .kernelPath => p.kernelPath
  | .rootfsPath => p.rootfsPath
  | .errorMessage => p.errorMessage

/-- A column that a change of status may set. -/
inductive VmColumn where
  | status
  | updatedAt
  | field (f : VmField)
  deriving DecidableEq, Repr

/-- What is given for a parameter: the value of a column, or a time, which stands for its text. -/
inductive Argument where
  | cell (value : Cell)
  | time (t : Instant)
  deriving DecidableEq, Repr

namespace Argument

def text? : Argument → Option String
  | .cell value => value.text?
  | .time _ => none

def integer? : Argument → Option Int
  | .cell value => value.integer?
  | .time _ => none

end Argument

/-- The record with the argument in the column, unless it cannot stand there. -/
def VmColumn.put? (vm : Vm) : VmColumn → Argument → Option Vm
  | .status, .cell word =>
    (word.text?.bind VmStatus.ofText?).map fun status => { vm with status := status }
  | .updatedAt, .time t => some { vm with updatedAt := t }
  | .field f, .cell value => value.nullableText?.map fun value => f.set vm value
  | _, _ => none

structure VmUpdate where
  /-- The columns that are set, each to a parameter of its own. -/
  sets : List VmColumn
  /-- How many parameters stand in the list of statuses. -/
  statuses : Nat
  deriving DecidableEq, Repr

namespace VmUpdate

/-- One parameter for each column that is set, then one for the key, then those of the statuses. -/
def parameters (u : VmUpdate) : Nat :=
  u.sets.length + 1 + u.statuses

/-- Sets one column more and adds its argument, unless the patch leaves the column alone. -/
def addField (patch : VmPatch) :
    List VmColumn × List Argument → VmField → List VmColumn × List Argument
  | (sets, arguments), f =>
    match patch.field f with
    | .keep => (sets, arguments)
    | .set value => (sets ++ [.field f], arguments ++ [.cell (.ofText? value)])

/-- The statement that moves the VM with the key to `next`, and its arguments. -/
def moving (key : Int) (expected : List VmStatus) (next : VmStatus) (patch : VmPatch)
    (now : Instant) : VmUpdate × List Argument :=
  let (sets, arguments) := VmField.all.foldl (addField patch)
    ([.status, .updatedAt], [.cell (.text next.text), .time now])
  (⟨sets, expected.length⟩,
    arguments ++ .cell (.integer key) :: expected.map fun status => .cell (.text status.text))

/-- Puts the arguments into the columns that are set, each into the one in its place. -/
def write? (u : VmUpdate) (arguments : List Argument) (vm : Vm) : Option Vm :=
  (u.sets.zip arguments).foldlM (fun vm written => written.1.put? vm written.2) vm

/-- The key that the statement asks for. -/
def key? (u : VmUpdate) (arguments : List Argument) : Option Int :=
  arguments[u.sets.length]?.bind Argument.integer?

/-- The words of the statuses that the statement asks for. -/
def words (u : VmUpdate) (arguments : List Argument) : List String :=
  (arguments.drop (u.sets.length + 1)).filterMap Argument.text?

end VmUpdate

/-- Too few arguments for the parameters, or too many: those that are too many count as one. -/
def Error.argumentCount (given needed : Nat) : Error :=
  .database ("Wrong number of parameters passed to query. Got " ++
    natText (min given (needed + 1)) ++ ", needed " ++ natText needed)

end VmFleet
