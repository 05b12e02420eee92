/-
Opening a state at its location. What can be opened depends on the file and on
what stands beside it, for changes are written with the help of other files: a
journal of what they replace, or a log of the changes with an index. A file that
is kept through a log cannot be used where no log is kept.
-/
import VmFleet.Store.Basic
import VmFleet.Store.Location

namespace VmFleet

/-- What is found at the path of a location. -/
inductive Stored where
  /-- No file is there, and none can be made. -/
  | unreachable
  | nothing
  /-- A file without a state. Its changes may go to a log already. -/
  | blank (logged : Bool)
  /-- A file of something else. -/
  | foreign
  /-- A state, whose changes go to a log or not. -/
  | state (s : Store) (logged : Bool)

/-- There are no contents. -/
def Stored.isEmpty : Stored → Bool
  | .nothing | .blank false => true
  | _ => false

/-- The files beside the one of a state. -/
inductive Companion where
  | journal | log | index | lock
  deriving DecidableEq, Repr

/-- What the name of a companion adds to the name of the file. -/
def Companion.ending : Companion → String
  | .journal => "-journal"
  | .log => "-wal"
  | .index => "-shm"
  | .lock => ".lock"

/-- What stands where a companion would. -/
inductive Room where
  | free
  | file (isEmpty : Bool)
  | directory
  | nameTooLong
  deriving DecidableEq, Repr

/-- A file can be there. -/
def Room.holdsFile : Room → Bool
  | .free | .file _ => true
  | .directory | .nameTooLong => false

/-- What is found for a location. -/
structure Found where
  stored : Stored
  beside : Companion → Room := fun _ => .free
  /-- The file that permissions are taken from is there, if one is asked for. -/
  permissions : Bool := true

/-- What an attempt to open a state leaves of the files. -/
inductive Trace where
  /-- The journal and the log that stood beside are removed if they had contents. -/
  | cleared
  /-- A file without a state, whose changes go to a log or not. -/
  | blank (logged : Bool)
  /-- The state, whose changes go to a log or not. -/
  | state (logged : Bool)
  /-- A log without contents. -/
  | log
  | index
  deriving DecidableEq, Repr

/-- What an opened state may be used for. -/
inductive Use where
  | changing
  /-- Reading. A change can be tried, so that what is wrong with it is found, but not written. -/
  | trying
  /-- Reading. No change can be begun. -/
  | reading
  deriving DecidableEq, Repr

/-- How an attempt to open a state ends. -/
inductive Opening where
  | opened (s : Store) (use : Use) (traces : List Trace)
  | refused (e : Error) (s : Store) (traces : List Trace)

/-- What can be done with the index of a log. -/
inductive IndexUse where
  | none | reading | writing
  deriving DecidableEq, Repr

namespace Location

def readOnlyText : String := "attempt to write a readonly database"

def unopenableText : String := "unable to open database file"

def faultyText : String := "disk I/O error"

def foreignText : String := "file is not a database"

/-- The log of a file that is locked as a whole needs no index, if the file may be written. -/
def indexUse (l : Location) (found : Found) : IndexUse :=
  if l.locking = .whole && !l.isReadOnly then .writing
  else match found.beside .index with
    | .free => if l.makesIndex then .writing else .none
    | .file _ => if l.makesIndex then .writing else .reading
    | .directory => .reading
    | .nameTooLong => .none

/-- What beside the file keeps it from being read, if anything. A journal with contents is played
back before, which is a change; a log with contents is read along. -/
def obstacle? (l : Location) (found : Found) : Option String :=
  let empty := found.stored.isEmpty
  let journal := found.beside .journal
  let log := found.beside .log
  if l.immutable then none
  else if l.locking = .beside ∧ ¬found.beside .lock = .free then some "database is locked"
  else if !empty && journal = .directory then some faultyText
  else if !empty && journal = .file false && l.access = .readOnly then some readOnlyText
  else if log = .directory then some (if empty then faultyText else unopenableText)
  else if !empty && log = .file false && !l.locking.keepsLog then some unopenableText
  else none

/-- Makes a file ready for its tables, then writes them. -/
def firstOpening (l : Location) (found : Found) (logged : Bool) (left : List Trace) : Opening :=
  let keepsLog := l.locking.keepsLog
  let refused (why : String) (traces : List Trace) : Opening :=
    .refused (.database why) .empty traces
  match l.obstacle? found with
  | some why => refused why left
  | none =>
    let cleared := if logged then left else left ++ [.cleared]
    if l.immutable then refused readOnlyText left
    else if logged && !keepsLog then refused unopenableText left
    else if l.access = .readOnly then
      refused readOnlyText
        (if !logged then cleared else if l.makesIndex then [.log, .index] else [.log])
    else if !logged && !(found.beside .journal).holdsFile then refused unopenableText cleared
    else if !keepsLog then .opened .empty .changing (cleared ++ [.state false])
    else match l.indexUse found with
      | .none => refused unopenableText (cleared ++ [.blank true, .log])
      | .reading => refused readOnlyText (cleared ++ [.blank true, .log])
      | .writing => .opened .empty .changing (cleared ++ [.blank true, .state true])

/-- Opens a state that is there. Where logs are kept, it is from now on kept through one. -/
def laterOpening (l : Location) (found : Found) (s : Store) (logged : Bool) : Opening :=
  let keepsLog := l.locking.keepsLog
  let refused (why : String) (traces : List Trace) : Opening := .refused (.database why) s traces
  if l.immutable then .opened s .trying []
  else match l.obstacle? found with
    | some why => refused why []
    | none =>
      if logged && !keepsLog then refused unopenableText []
      else if !keepsLog then
        if l.isReadOnly then .opened s .trying []
        else .opened s .changing [.cleared, .state false]
      else if !logged && l.isReadOnly then refused readOnlyText []
      else match l.indexUse found with
        | .none => refused unopenableText (if logged then [.log] else [.state true, .log])
        | .reading => .opened s .reading [.log]
        | .writing =>
          if l.isReadOnly then .opened s .trying [.log, .index]
          else .opened s .changing
            ([.cleared] ++ (if logged then [] else [.state false]) ++ [.state true])

/-- Opens the state of a location. -/
def opening (l : Location) (found : Found) : Opening :=
  let refused (why : String) : Opening := .refused (.database why) .empty []
  let unopenable : Opening := refused (unopenableText ++ ": " ++ l.text)
  if l.path.isNone then
    if l.isReadOnly then refused readOnlyText else .opened .empty .changing []
  else if !found.permissions then refused faultyText
  else match found.stored with
    | .unreachable => unopenable
    | .nothing =>
      if l.access = .creating then l.firstOpening found false [.blank false] else unopenable
    | .blank logged => l.firstOpening found logged []
    | .foreign => match l.obstacle? found with
      | some why => refused why
      | none =>
        .refused (.database foreignText) .empty (if l.isReadOnly then [] else [.cleared])
    | .state s logged => l.laterOpening found s logged

end Location

end VmFleet
