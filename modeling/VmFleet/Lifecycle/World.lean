/-
What programs run in: the store, the clock and the provisioning tool. The tool
is any function from a call and its number to a reply; the reply says how long
the call lasts, what others do to the store from its start on, and how it ends.
What others do they do at their own time, also when the call was given up before.
The database answers every operation; a write is refused for what the rows say.
-/
import VmFleet.Lifecycle.Program
import VmFleet.Pool.Allocator
import VmFleet.Store.Tasks
import VmFleet.Store.Vms

namespace VmFleet

/-- How a call comes back by itself. -/
inductive CallEnd where
  | answered (result : Except ProvisionError Report)
  /-- The thread that waits for the tool breaks down. -/
  | broken (what : String)

namespace CallEnd

def result : CallEnd → Except Error Report
  | .answered (.ok r) => .ok r
  | .answered (.error e) => .error (.provision e)
  | .broken what => .error (.worker ("provisioner call failed: " ++ what))

end CallEnd

/-- What others write to the store, if they do it at the given time. -/
abbrev Write := Instant → Store → Store

/-- What the tool does with one call. -/
structure Reply where
  /-- `none` for a call that never comes back. -/
  lasts : Option Duration := some .zero
  /-- Writes of others to the store, each at so long after the start of the call. -/
  meanwhile : List (Duration × Write) := []
  ends : CallEnd

/-- The tool's behaviour: its reply to the call with this number, made at this time. -/
abbrev Tool := Nat → Call → Instant → Reply

/-- A call that was made, and the answer it got; `none` if it was cut short. -/
structure CallRecord where
  call : Call
  start : Instant
  answer : Option (Except Error Report)

/-- A write of others that is still to come. -/
structure DueWrite where
  due : Instant
  write : Write

structure World where
  store : Store
  now : Instant
  /-- The calls made so far, oldest first. -/
  calls : List CallRecord := []
  /-- What others will write, earliest first. -/
  coming : List DueWrite := []

namespace World

/-- Lets time pass up to `t`; what others write by then they write when it is due. -/
def reach (w : World) (t : Instant) : World :=
  let (due, later) := w.coming.span (·.due ≤ t)
  { w with
    store := due.foldl (fun s x => x.write x.due s) w.store
    now := if w.now ≤ t then t else w.now
    coming := later }

/-- Where nothing is to come, time alone passes. -/
theorem reach_of_coming_eq_nil {w : World} (h : w.coming = []) (t : Instant) :
    w.reach t = { w with now := if w.now ≤ t then t else w.now } := by
  cases w
  cases h
  rfl

/-- Lets time pass. -/
def advance (w : World) (d : Duration) : World :=
  w.reach (w.now.after d)

/-- Puts a write behind those that are due no later. -/
def schedule (x : DueWrite) : List DueWrite → List DueWrite
  | [] => [x]
  | y :: rest => if x.due < y.due then x :: y :: rest else y :: schedule x rest

/-- When a call ends for its caller and with what: with the tool's own answer, or after its time
and the grace with a timeout. -/
def callEnd (c : Call) (start : Instant) (reply : Reply) : Instant × Except Error Report :=
  let latest := start.after (c.budget + callGrace)
  match reply.lasts with
  | none => (latest, .error (.timeout c.budget))
  | some d =>
    if start.after d ≤ latest then (start.after d, reply.ends.result)
    else (latest, .error (.timeout c.budget))

/-- Waits for a call, but not past `abortAt`. -/
def call (tool : Tool) (c : Call) (abortAt : Option Instant) (w : World) :
    Option (Except Error Report) × World :=
  let reply := tool w.calls.length c w.now
  let (finish, result) := callEnd c w.now reply
  let (finish, answer) := match abortAt with
    | some t => if t < finish then (t, none) else (finish, some result)
    | none => (finish, some result)
  let coming := reply.meanwhile.foldl
    (fun xs (delay, write) => schedule ⟨w.now.after delay, write⟩ xs) w.coming
  let record : CallRecord := ⟨c, w.now, answer⟩
  (answer, { w with calls := w.calls ++ [record], coming := coming }.reach finish)

/-- The answer and the store of a write that may be refused; a refused write changes nothing. -/
def commit {α : Type} (w : World) : Except Error (α × Store) → Except Error α × World
  | .ok (a, s) => (.ok a, { w with store := s })
  | .error e => (.error e, w)

/-- A write changes the store alone. -/
theorem commit_frame {α : Type} (w : World) (r : Except Error (α × Store)) :
    (w.commit r).2.now = w.now ∧ (w.commit r).2.calls = w.calls ∧
      (w.commit r).2.coming = w.coming := by
  cases r <;> exact ⟨rfl, rfl, rfl⟩

def commitUnit (w : World) (r : Except Error Store) : Except Error Unit × World :=
  w.commit (r.map fun s => ((), s))

/-- The clock never shows the same time twice. -/
def tick : Duration := ⟨1000⟩

/-- Carries out one operation. Operations on the store take no time. -/
def perform (tool : Tool) {β : Type} : Operation β → World → β × World
  | .now, w =>
    let w := w.advance tick
    (w.now, w)
  | .findVm key, w => (w.store.vm? key, w)
  | .vmsIn statuses, w => (w.store.listVmsByStatus statuses, w)
  | .transition key expected next patch, w =>
    w.commit (w.store.transition w.now key expected next patch)
  | .removeVm key, w =>
    let (known, s) := w.store.removeVm key
    (known, { w with store := s })
  | .allocate pool vmId, w => w.commit (Allocator.allocate w.store w.now pool vmId)
  | .release vmId, w =>
    let (held, s) := Allocator.release w.store w.now vmId
    (held, { w with store := s })
  | .claim, w => w.commit (w.store.claimNext w.now)
  | .complete taskId note, w => w.commitUnit (w.store.completeTask w.now taskId note)
  | .fail taskId message, w => w.commitUnit (w.store.failTask w.now taskId message)
  | .retry taskId notBefore message, w =>
    w.commitUnit (w.store.retryTask taskId notBefore message)
  | .failAbandoned cutoff, w => w.commit (w.store.failAbandoned w.now cutoff)
  | .call c abortAt, w => w.call tool c abortAt

end World

namespace Program

/-- How a run of a program ends. -/
inductive Ending (α : Type) where
  | finished (a : α)
  | crashed (why : String)

/-- Runs a program to its end, with nobody else writing but during calls. -/
def run (tool : Tool) {α : Type} : Program α → World → Ending α × World
  | .pure a, w => (.finished a, w)
  | .ask op next, w =>
    let (answer, w) := w.perform tool op
    (next answer).run tool w
  | .crash why, w => (.crashed why, w)

end Program

end VmFleet
