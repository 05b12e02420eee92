/-
Paths: names between slashes. A path that starts with a slash leads from the
root, any other from the directory it is used in. Names are bytes, of which not
every list is a text.
-/

namespace VmFleet

/-- The bytes between two slashes. -/
abbrev FileName := List UInt8

/-- Names with slashes between them, as bytes. -/
abbrev FilePath := List UInt8

namespace Path

def slash : UInt8 := 47

/-- The bytes of a text. -/
def ofText (p : String) : FilePath :=
  p.toList.flatMap String.utf8EncodeChar

def isAbsolute (p : String) : Bool :=
  p.startsWith "/"

/-- `p` taken from the directory `base`; an absolute path stands for itself. -/
def join (base p : String) : String :=
  if isAbsolute p || base.isEmpty then p
  else if base.endsWith "/" then base ++ p
  else base ++ "/" ++ p

/-- The names between the slashes; some may be empty. -/
def names (p : FilePath) : List FileName :=
  p.foldr (fun b names =>
    if b = slash then [] :: names
    else match names with
      | name :: rest => (b :: name) :: rest
      | [] => [[b]]) [[]]

/-- The bytes a name may have. -/
def longestName : Nat := 255

/-- The bytes a path may have. -/
def longestPath : Nat := 4095

end Path

/-- Others end a text at its first NUL, so one that holds a NUL cannot be handed over to them. -/
def holdsNul (s : String) : Bool :=
  s.toList.contains (Char.ofNat 0)

inductive FileKind where
  | directory | file
  deriving DecidableEq, Repr

/-- What stands at a path, if anything. -/
abbrev FileLookup := String → Option FileKind

/-- Why a file cannot be read or run. -/
inductive FileFault where
  | missing
  | denied
  /-- The path goes on below a file. -/
  | notDirectory
  | isDirectory
  | nameTooLong
  | nulInName
  /-- The file holds bytes that are no text. -/
  | notText
  | other (why : String)
  deriving DecidableEq, Repr

namespace FileFault

def message : FileFault → String
  | .missing => "No such file or directory (os error 2)"
  | .denied => "Permission denied (os error 13)"
  | .notDirectory => "Not a directory (os error 20)"
  | .isDirectory => "Is a directory (os error 21)"
  | .nameTooLong => "File name too long (os error 36)"
  | .nulInName => "file name contained an unexpected NUL byte"
  | .notText => "stream did not contain valid UTF-8"
  | .other why => why

end FileFault

end VmFleet
