/-
The task table. Times are compared by their texts, and a row whose times do not
read back cannot be returned: the call that would return it fails instead and
changes nothing.
-/
import VmFleet.Store.Basic

namespace VmFleet

namespace TaskRow

def ofTask (t : Task) : TaskRow :=
  { t with
    notBefore := .of t.notBefore
    createdAt := .of t.createdAt
    startedAt := t.startedAt.map .of
    completedAt := t.completedAt.map .of }

/-- The error for a column whose text is no time. -/
def unreadable (column : Nat) : Error :=
  .database ("Conversion error from type Text at index: " ++ Error.natText column ++
    ", input contains invalid characters")

def readStamp (column : Nat) (s : Stamp) : Except Error Instant :=
  match s.instant? with
  | some t => .ok t
  | none => .error (unreadable column)

def readStamp? (column : Nat) : Option Stamp → Except Error (Option Instant)
  | some s => (readStamp column s).map some
  | none => .ok none

/-- The task of a row. Attempts are held in 32 bits. -/
def task (row : TaskRow) : Except Error Task := do
  if bound32 ≤ row.attempts then
    throw (.database ("Integer " ++ Error.natText row.attempts ++ " out of range at index 5"))
  let notBefore ← readStamp 7 row.notBefore
  let createdAt ← readStamp 8 row.createdAt
  let startedAt ← readStamp? 9 row.startedAt
  let completedAt ← readStamp? 10 row.completedAt
  return { row with
    notBefore := notBefore
    createdAt := createdAt
    startedAt := startedAt
    completedAt := completedAt }

end TaskRow

namespace Store

def taskRow? (s : Store) (id : String) : Option TaskRow :=
  s.tasks.find? (·.id == id)

def insertTask (s : Store) (t : Task) : Except Error Store :=
  if (s.taskRow? t.id).isSome then .error (.unique "tasks.id")
  else .ok { s with tasks := s.tasks ++ [.ofTask t] }

def task? (s : Store) (id : String) : Except Error (Option Task) :=
  match s.taskRow? id with
  | none => .ok none
  | some row => row.task.map some

/-- The most recent tasks, if a status is given those in it, at most `limit`. -/
def listTasks (s : Store) (status : Option TaskStatus) (limit : Nat) :
    Except Error (List Task) :=
  let rows := s.tasks.filter fun row => status.all (row.status == ·)
  (limited (signed limit) (rows.mergeSort fun a b => b.createdAt ≤ a.createdAt)).mapM TaskRow.task

/-- A VM's tasks, oldest first. -/
def listTasksForVm (s : Store) (vmKey : Int) : Except Error (List Task) :=
  let rows := s.tasks.filter (·.vmKey == vmKey)
  (rows.mergeSort fun a b => a.createdAt ≤ b.createdAt).mapM TaskRow.task

/-- Applies `f` to the row with the id. -/
def setTask (s : Store) (id : String) (f : TaskRow → TaskRow) : Store :=
  { s with tasks := updateWhere (·.id == id) f s.tasks }

/-- A pending row that is due. -/
def isDue (now : Stamp) (row : TaskRow) : Bool :=
  row.status == .pending && row.notBefore ≤ now

/-- `a` is claimed before `b`: it was due earlier, or was created earlier. -/
def isBefore (a b : TaskRow) : Bool :=
  a.notBefore < b.notBefore || (a.notBefore == b.notBefore && a.createdAt < b.createdAt)

/-- The row that is claimed next: of equals, the one inserted first. -/
def nextDue? (now : Stamp) (rows : List TaskRow) : Option TaskRow :=
  (rows.filter (isDue now)).foldl (fun best row =>
    match best with
    | none => some row
    | some b => if isBefore row b then some row else some b) none

/-- The row once a worker has it. -/
def claimed (row : TaskRow) (now : Stamp) : TaskRow :=
  { row with status := .running, attempts := row.attempts + 1, startedAt := some now }

/-- Takes the next due task and marks it running. -/
def claimNext (s : Store) (now : Instant) : Except Error (Option Task × Store) :=
  let stamp := Stamp.of now
  match nextDue? stamp s.tasks with
  | none => .ok (none, s)
  | some row =>
    (TaskRow.task (claimed row stamp)).map fun t =>
      (some t, s.setTask row.id fun row => claimed row stamp)

/-- The row once its task has ended. -/
def finished (row : TaskRow) (status : TaskStatus) (now : Instant) (message : Option String) :
    TaskRow :=
  { row with
    status := status
    completedAt := some (.of now)
    lastError := message <|> row.lastError }

/-- Changes the row of a task that must be there. -/
def changeTask (s : Store) (id : String) (f : TaskRow → TaskRow) : Except Error Store :=
  if (s.taskRow? id).isSome then .ok (s.setTask id f) else .error (.taskNotFound id)

/-- Ends a task; a note says why it did nothing. -/
def completeTask (s : Store) (now : Instant) (id : String) (note : Option String) :
    Except Error Store :=
  s.changeTask id fun row => finished row .completed now note

def failTask (s : Store) (now : Instant) (id message : String) : Except Error Store :=
  s.changeTask id fun row => finished row .failed now (some message)

/-- Puts a task back into the queue, due at `notBefore`. -/
def retryTask (s : Store) (id : String) (notBefore : Instant) (message : String) :
    Except Error Store :=
  s.changeTask id fun row =>
    { row with status := .pending, notBefore := .of notBefore, lastError := some message }

/-- A running row whose worker started it before the cutoff. -/
def isAbandoned (cutoff : Stamp) (row : TaskRow) : Bool :=
  row.status == .running && row.startedAt.any (· < cutoff)

/-- The abandoned rows in the order in which they were due. -/
def abandonedRows (s : Store) (cutoff : Stamp) : List TaskRow :=
  (s.tasks.filter (isAbandoned cutoff)).mergeSort fun a b => a.notBefore ≤ b.notBefore

/-- Fails the abandoned tasks; they are returned as they were. -/
def failAbandoned (s : Store) (now cutoff : Instant) : Except Error (List Task × Store) :=
  let stamp := Stamp.of cutoff
  ((s.abandonedRows stamp).mapM TaskRow.task).map fun tasks =>
    (tasks, { s with
      tasks := updateWhere (isAbandoned stamp)
        (fun row => finished row .failed now (some "abandoned by worker")) s.tasks })

end Store

end VmFleet
