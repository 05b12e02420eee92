/-
The compact text of a JSON value: no blanks between words, members in their
order, and only quotes, backslashes and control characters escaped.
-/
import VmFleet.Json.Value
import VmFleet.Text.Decimal

namespace VmFleet.Json

def hexChar (n : Nat) : Char :=
  if n < 10 then Char.ofNat (48 + n) else Char.ofNat (87 + n)

def escapeChar (c : Char) : List Char :=
  if c = '"' then ['\\', '"']
  else if c = '\\' then ['\\', '\\']
  else if c = '\n' then ['\\', 'n']
  else if c = '\r' then ['\\', 'r']
  else if c = '\t' then ['\\', 't']
  else if c = '\x08' then ['\\', 'b']
  else if c = '\x0c' then ['\\', 'f']
  else if c.toNat < 0x20 then ['\\', 'u', '0', '0', hexChar (c.toNat / 16), hexChar (c.toNat % 16)]
  else [c]

def strChars (s : String) : List Char :=
  '"' :: s.toList.flatMap escapeChar ++ ['"']

def intChars (n : Int) : List Char :=
  if n < 0 then '-' :: Text.decimal n.natAbs else Text.decimal n.toNat

mutual

def chars : Json → List Char
  | .null => ['n', 'u', 'l', 'l']
  | .bool true => ['t', 'r', 'u', 'e']
  | .bool false => ['f', 'a', 'l', 's', 'e']
  | .int n => intChars n
  | .real => ['0', '.', '0']
  | .str s => strChars s
  | .brokenStr => ['"', '"']
  | .arr items => '[' :: itemChars true items ++ [']']
  | .obj members => '{' :: memberChars true members ++ ['}']

def itemChars (first : Bool) : List Json → List Char
  | [] => []
  | v :: rest => (if first then [] else [',']) ++ chars v ++ itemChars false rest

def memberChars (first : Bool) : List (Option String × Json) → List Char
  | [] => []
  | (k, v) :: rest =>
    (if first then [] else [',']) ++ strChars (k.getD "") ++ ':' :: chars v ++
      memberChars false rest

end

/-- The compact text of the value. -/
def text (v : Json) : String :=
  String.ofList v.chars

end VmFleet.Json
