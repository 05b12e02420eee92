/-
A tree of directories and files, and the ways through it. A path is walked name
by name, and every name but the last must stand for a directory. The state of a
fleet is looked for in another way: there `..` takes back the name before it,
whether or not that stands for anything.
-/
import VmFleet.Files.Path
import VmFleet.Store.Opening

namespace VmFleet

/-- The names from the root down to a file or directory. -/
abbrev Place := List FileName

inductive FileContent where
  | text (s : String)
  /-- A file made ready for a state, whose changes go to a log. There is no text in it yet. -/
  | ready
  /-- The state of a fleet, whose changes go to a log or not. -/
  | state (s : Store) (logged : Bool)
  /-- Bytes that are no text. -/
  | bytes

/-- Files by their places, and further directories. A place above another is a directory. -/
structure FileTree where
  files : List (Place × FileContent) := []
  directories : List Place := []

namespace FileTree

def kindAt (t : FileTree) (place : Place) : Option FileKind :=
  let places := t.files.map (·.1)
  if places.contains place then some .file
  else if place.isEmpty || (places ++ t.directories).any (place.isPrefixOf ·) then some .directory
  else none

def put (t : FileTree) (place : Place) (content : FileContent) : FileTree :=
  { t with files := (place, content) :: t.files.filter (·.1 != place) }

def remove (t : FileTree) (place : Place) : FileTree :=
  { t with files := t.files.filter (·.1 != place) }

/-- The name of the directory itself, and of the one above it. -/
def dot : FileName := Path.ofText "."
def dots : FileName := Path.ofText ".."

/-- One step from a place. -/
def step (t : FileTree) (place : Place) (name : FileName) : Except FileFault Place :=
  match t.kindAt place with
  | none => .error .missing
  | some .file => .error .notDirectory
  | some .directory =>
    if name.isEmpty || name == dot then .ok place
    else if name == dots then .ok place.dropLast
    else if Path.longestName < name.length then .error .nameTooLong
    else .ok (place ++ [name])

/-- Where a path starts that is used in the directory `here`. -/
def origin (here : Place) (path : FilePath) : Place :=
  if path.head? = some Path.slash then [] else here

/-- Where a path leads that is used in the directory `here`. Nothing need stand there. -/
def walk (t : FileTree) (here : Place) (path : FilePath) : Except FileFault Place :=
  if path.contains 0 then .error .nulInName
  else if path.isEmpty then .error .missing
  else if Path.longestPath < path.length then .error .nameTooLong
  else (Path.names path).foldlM t.step (origin here path)

/-- What a path leads to. -/
def reached (t : FileTree) (here : Place) (path : FilePath) : Option FileKind :=
  (t.walk here path).toOption.bind t.kindAt

def find (t : FileTree) (here : Place) : FileLookup := fun path =>
  t.reached here (Path.ofText path)

/-- The text of a file. -/
def read (t : FileTree) (here : Place) (path : String) : Except FileFault String := do
  let place ← t.walk here (Path.ofText path)
  match t.files.lookup place, t.kindAt place with
  | some (.text s), _ => .ok s
  | some .ready, _ => .ok ""
  | some (.state _ _), _ | some .bytes, _ => .error .notText
  | none, some .directory => .error .isDirectory
  | none, _ => .error .missing

/-- The bytes that the path of a state may have, from the root down. -/
def longestStatePath : Nat := 504

/-- The bytes that a path may have on the way to a state. -/
def longestStateWay : Nat := 511

/-- The bytes of the path from the root down to a place. -/
def size (place : Place) : Nat :=
  place.foldl (fun n name => n + name.length + 1) 0

/-- Where the state of a path is looked for. -/
def statePlace? (t : FileTree) (here : Place) (path : FilePath) : Option Place := do
  let place ← (Path.names path).foldlM (fun (place : Place) name =>
    if name.isEmpty || name == dot then some place
    else if name == dots then some place.dropLast
    else
      let below := place ++ [name]
      if Path.longestName < name.length || longestStateWay < size below ||
        t.kindAt place == some .file then none
      else some below) (origin here path)
  if longestStatePath < size place then none else some place

/-- What is found of a state at a path. -/
def stored (t : FileTree) (here : Place) (path : FilePath) : Stored :=
  match t.statePlace? here path with
  | none => .unreachable
  | some place =>
    match t.files.lookup place, t.kindAt place, t.kindAt place.dropLast with
    | some (.state s logged), _, _ => .state s logged
    | some .ready, _, _ => .blank true
    -- a single byte counts as none, for some systems keep no empty file
    | some (.text s), _, _ => if s.utf8ByteSize ≤ 1 then .blank false else .foreign
    | some .bytes, _, _ => .foreign
    | none, none, some .directory => .nothing
    | none, _, _ => .unreachable

/-- The place of what stands beside a file. -/
def besidePlace (place : Place) (c : Companion) : Place :=
  place.dropLast ++ [(place.getLast?).getD [] ++ Path.ofText c.ending]

/-- What stands beside the file of a path. -/
def beside (t : FileTree) (here : Place) (path : FilePath) (c : Companion) : Room :=
  match t.statePlace? here path with
  | none => .nameTooLong
  | some place =>
    let place := besidePlace place c
    if Path.longestName < ((place.getLast?).getD []).length then .nameTooLong
    else match t.files.lookup place, t.kindAt place with
      | some (.text s), _ => .file s.isEmpty
      | some _, _ => .file false
      | none, some _ => .directory
      | none, none => .free

/-- What is found for a location. -/
def found (t : FileTree) (here : Place) (l : Location) : Found where
  stored := l.path.elim .nothing (t.stored here)
  beside := fun c => l.path.elim .free (t.beside here · c)
  permissions := l.permissionsOf.all fun path => (t.reached here path).isSome

/-- The tree with a file where there is none. -/
def putNew (t : FileTree) (place : Place) (content : FileContent) : FileTree :=
  if (t.kindAt place).isNone then t.put place content else t

/-- The tree with what is left at a path. -/
def leave (here : Place) (path : FilePath) (s : Store) (t : FileTree) (trace : Trace) :
    FileTree :=
  match t.statePlace? here path with
  | none => t
  | some place =>
    let without (companions : List Companion) : FileTree :=
      companions.foldl (fun t c => t.remove (besidePlace place c)) t
    match trace with
    | .cleared => without ([.journal, .log].filter (t.beside here path · = .file false))
    | .blank false => t.put place (.text "")
    | .blank true => (without [.journal]).put place .ready
    | .state false => (without [.journal]).put place (.state s false)
    | .state true => (without [.log, .index]).put place (.state s true)
    | .log => t.putNew (besidePlace place .log) (.text "")
    | .index => t.putNew (besidePlace place .index) .bytes

end FileTree

end VmFleet
