/-
Work on VMs as programs of requests. A program asks for one operation at a time
and goes on from its answer; each operation on the store is committed before
the next one is asked for. So the same program can be run to its end, can be
stopped between any two operations, and can be run while others write to the
store in between. What fails is the network, the host, the pool or the tool; the
database itself is taken to be there at every operation.
-/
import VmFleet.Config.Record
import VmFleet.Provision.Report
import VmFleet.Store.Basic

namespace VmFleet

/-- One call of the provisioning tool, with the time it is given. -/
structure Call where
  action : Action
  request : ProvisionRequest
  budget : Duration
  deriving DecidableEq, Repr

/-- The operations of a program and the type of their answers. The database does not fail: a VM is
looked up, removed and has its addresses released without error, so that a delete has no way to fail
once the tool has answered, and the errors of the others say what was found in the rows. -/
inductive Operation : Type → Type where
  | now : Operation Instant
  | findVm (key : Int) : Operation (Option Vm)
  | vmsIn (statuses : List VmStatus) : Operation (List Vm)
  | transition (key : Int) (expected : List VmStatus) (next : VmStatus) (patch : VmPatch) :
    Operation (Except Error Vm)
  | removeVm (key : Int) : Operation Bool
  | allocate (pool vmId : String) : Operation (Except Error Allocation)
  | release (vmId : String) : Operation Bool
  | claim : Operation (Except Error (Option Task))
  | complete (taskId : String) (note : Option String) : Operation (Except Error Unit)
  | fail (taskId message : String) : Operation (Except Error Unit)
  | retry (taskId : String) (notBefore : Instant) (message : String) :
    Operation (Except Error Unit)
  | failAbandoned (cutoff : Instant) : Operation (Except Error (List Task))
  /-- Waits for a remote call, but not past `abortAt`: then the answer is `none`. -/
  | call (c : Call) (abortAt : Option Instant) : Operation (Option (Except Error Report))

/-- A program with a result of type `α`. -/
inductive Program (α : Type) : Type 1 where
  | pure (a : α)
  | ask {β : Type} (op : Operation β) (next : β → Program α)
  /-- The thread of the program ends here without a result. -/
  | crash (why : String)

namespace Program

def bind {α β : Type} : Program α → (α → Program β) → Program β
  | .pure a, f => f a
  | .ask op next, f => .ask op fun b => (next b).bind f
  | .crash why, _ => .crash why

instance : Monad Program where
  pure := .pure
  bind := .bind

/-- Asks for one operation. -/
def perform {β : Type} (op : Operation β) : Program β :=
  .ask op .pure

/-- The program with a time limit on all of its calls: a call that would last longer ends the
program at the limit, with no result. -/
def within {α : Type} (limit : Instant) : Program α → Program (Option α)
  | .pure a => .pure (some a)
  | .ask (.call c _) next =>
    .ask (.call c (some limit)) fun
      | none => .pure none
      | some r => (next (some r)).within limit
  | .ask op next => .ask op fun b => (next b).within limit
  | .crash why => .crash why

end Program

end VmFleet
