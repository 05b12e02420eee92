/-
Lines of a text. A line ends at a line feed; a carriage return directly before
that line feed belongs to the line end, and a last line without a line feed
keeps every character it has. The empty text has no lines.
-/

namespace VmFleet.Text

/-- Drops one carriage return from the end of a line. -/
def dropReturn (cs : List Char) : List Char :=
  match cs.reverse with
  | '\r' :: rest => rest.reverse
  | _ => cs

/-- `current` holds, in reverse, the characters of the line being read. -/
def linesFrom (current : List Char) : List Char → List (List Char)
  | [] => if current.isEmpty then [] else [current.reverse]
  | c :: rest =>
    if c = '\n' then dropReturn current.reverse :: linesFrom [] rest
    else linesFrom (c :: current) rest

def lines (s : String) : List String :=
  (linesFrom [] s.toList).map String.ofList

end VmFleet.Text
