/-
Where a state is kept: the path of a file, or a text that starts with `file:`.
After `file:`, a percent sign and two hexadecimal digits stand for a byte,
options follow after a question mark, and nothing after `#` is read. A state
may also be kept nowhere, and some locations may only be read.
-/
import VmFleet.Bounds
import VmFleet.Error
import VmFleet.Files.Path
import VmFleet.Text.Decimal
import VmFleet.Text.Utf8

namespace VmFleet

/-- What may be done at a location. -/
inductive Access where
  /-- Nothing is written. -/
  | readOnly
  /-- The file must be there. -/
  | existing
  /-- A file that is not there is made. -/
  | creating
  deriving DecidableEq, Repr

/-- How those who use one file keep out of each other's way. -/
inductive Locking where
  /-- Parts of the file are locked. Changes may go to a log beside it, which has an index. -/
  | parts
  /-- One program has the whole file. Changes may go to a log beside it. -/
  | whole
  /-- A directory beside the file stands for the lock. -/
  | beside
  | never
  deriving DecidableEq, Repr

/-- Changes can go to a log first. -/
def Locking.keepsLog : Locking → Bool
  | .parts | .whole => true
  | .beside | .never => false

structure Location where
  /-- The text that names the location. -/
  text : String
  /-- `none` where the state is kept nowhere: it is empty at first and then forgotten. -/
  path : Option FilePath
  access : Access
  locking : Locking := .parts
  /-- The file is taken to be one that never changes: nothing is locked or written. -/
  immutable : Bool := false
  /-- An index of the log that is not there is made. -/
  makesIndex : Bool := true
  /-- A file that must be there: the permissions of a new file are taken from it. -/
  permissionsOf : Option FilePath := none
  deriving DecidableEq, Repr

def Location.isReadOnly (l : Location) : Bool :=
  l.access = .readOnly || l.immutable

/-- Why a text names no location. -/
inductive LocationFault where
  | nul (position : Nat)
  | authority (name : String)
  | unknownMode (option value : String)
  /-- A mode that allows more than the mode before it. -/
  | widerMode (value : String)
  | unknownSystem (name : String)
  | longName (text : String)
  deriving DecidableEq, Repr

namespace LocationFault

def message : LocationFault → String
  | .nul position => "nul byte found in provided data at position: " ++ Error.natText position
  | .authority name => "invalid uri authority: " ++ name
  | .unknownMode option value => "no such " ++ option ++ " mode: " ++ value
  | .widerMode value => "access mode not allowed: " ++ value
  | .unknownSystem name => "no such vfs: " ++ name
  | .longName text => "unable to open database file: " ++ text

def error (f : LocationFault) : Error :=
  .database f.message

end LocationFault

namespace Location

def hexValue? (c : Char) : Option Nat :=
  if '0' ≤ c ∧ c ≤ '9' then some (c.toNat - 48)
  else if 'a' ≤ c ∧ c ≤ 'f' then some (c.toNat - 87)
  else if 'A' ≤ c ∧ c ≤ 'F' then some (c.toNat - 55)
  else none

/-- The bytes of a text in which a percent sign and two hexadecimal digits stand for one. -/
def unescape : List Char → List UInt8
  | '%' :: high :: low :: rest =>
    match hexValue? high, hexValue? low with
    | some h, some l => UInt8.ofNat (h * 16 + l) :: unescape rest
    | _, _ => 37 :: unescape (high :: low :: rest)
  | c :: rest => String.utf8EncodeChar c ++ unescape rest
  | [] => []

/-- A part of a location's text. It ends where a NUL is written. -/
def part (cs : List Char) : List UInt8 :=
  (unescape cs).takeWhile (· != 0)

/-- The text up to a mark and the text after it. -/
def splitAt (mark : Char) (cs : List Char) : List Char × List Char :=
  (cs.takeWhile (· != mark), (cs.dropWhile (· != mark)).drop 1)

/-- The options after the question mark. One without a name is none. -/
def options (cs : List Char) : List (String × List UInt8) :=
  let read (cs : List Char) : String × List UInt8 :=
    let (name, value) := splitAt '=' cs
    (Text.ofUtf8 (part name), part value)
  (((String.ofList cs).splitOn "&").map fun s => read s.toList).filter (·.1 != "")

/-- The number at the head of a text, decimal or hexadecimal. One of more than thirty-one bits
is none. -/
def leadingNumber (cs : List Char) : Nat :=
  let isHex (c : Char) : Bool := (hexValue? c).isSome
  let n := match cs with
    | '0' :: 'x' :: rest | '0' :: 'X' :: rest =>
      (rest.takeWhile isHex).foldl (fun n c => n * 16 + (hexValue? c).getD 0) 0
    | _ => Text.digitsValue (cs.takeWhile Char.isDigit)
  if n < bound31 then n else 0

/-- A switch is on by a word, or by a number whose last byte is not zero. -/
def isOn (value : String) : Bool :=
  match value.toList with
  | [] => false
  | c :: rest =>
    if c.isDigit then leadingNumber (c :: rest) % 256 != 0
    else ["on", "yes", "true"].contains value.toLower

/-- What the options ask for. -/
structure Wish where
  /-- `none` for a state that is kept nowhere. -/
  access : Option Access := some .creating
  /-- The way in which files are reached. -/
  system : String := "unix"

namespace Wish

def accesses : List (String × Option Access) :=
  [("ro", some .readOnly), ("rw", some .existing), ("rwc", some .creating), ("memory", none)]

/-- How much an access allows. -/
def breadth : Option Access → Nat
  | some .readOnly => 0
  | some .existing => 1
  | some .creating => 2
  | none => 3

/-- Each mode may allow as much as the one before it, or keep the state nowhere. -/
def take (w : Wish) : String × String → Except LocationFault Wish
  | ("vfs", value) => .ok { w with system := value }
  | ("cache", value) =>
    if value = "shared" ∨ value = "private" then .ok w else .error (.unknownMode "cache" value)
  | ("mode", value) =>
    match accesses.lookup value with
    | none => .error (.unknownMode "access" value)
    | some access =>
      if access.isSome ∧ breadth w.access < breadth access then .error (.widerMode value)
      else .ok { w with access := access }
  | _ => .ok w

end Wish

/-- The ways in which files are reached. The last one reaches none. -/
def systems : List (String × Option Locking) :=
  [("unix", some .parts), ("unix-excl", some .whole), ("unix-dotfile", some .beside),
    ("unix-none", some .never), ("memdb", none)]

/-- The bytes that a name may have for a state that is kept nowhere. -/
def longestUnkeptName : Nat := 1016

/-- Some names stand for no file. -/
def isUnkept (name : FilePath) : Bool :=
  name.isEmpty || name == Path.ofText ":memory:"

/-- The part of the text after `file:` without its authority, which must be this machine. -/
def withoutAuthority (cs : List Char) : Except LocationFault (List Char) :=
  match cs with
  | '/' :: '/' :: rest =>
    let name := String.ofList (rest.takeWhile (· != '/'))
    if name = "" ∨ name = "localhost" then .ok (rest.dropWhile (· != '/'))
    else .error (.authority name)
  | _ => .ok cs

/-- Reads the text after `file:`, of a text that starts so. Of a switch that is given more than once
the first counts. -/
def readUri (text : String) (cs : List Char) : Except LocationFault Location := do
  let cs ← withoutAuthority cs
  let (name, query) := splitAt '?' (splitAt '#' cs).1
  let name := part name
  let options := options query
  let switch (o : String) : Bool := (options.lookup o).any fun value => isOn (Text.ofUtf8 value)
  let wish ← (options.map fun (o, value) => (o, Text.ofUtf8 value)).foldlM Wish.take {}
  let some system := systems.lookup wish.system | .error (.unknownSystem wish.system)
  let some access := wish.access | .ok { text, path := none, access := .creating }
  if isUnkept name then return { text, path := none, access }
  match system with
  | some locking =>
    return {
      text, path := some name, access
      locking := if switch "nolock" then .never else locking
      immutable := switch "immutable"
      makesIndex := !switch "readonly_shm"
      permissionsOf := options.lookup "modeof" }
  | none =>
    if longestUnkeptName < name.length then .error (.longName text)
    else return {
      text, path := none, access := if switch "immutable" then .readOnly else access }

def read (text : String) : Except LocationFault Location :=
  if holdsNul text then
    let before := text.toList.takeWhile (· != Char.ofNat 0)
    .error (.nul (String.ofList before).utf8ByteSize)
  else match text.toList with
    | 'f' :: 'i' :: 'l' :: 'e' :: ':' :: rest => readUri text rest
    | _ =>
      let name := Path.ofText text
      .ok { text, path := if isUnkept name then none else some name, access := .creating }

end Location

end VmFleet
