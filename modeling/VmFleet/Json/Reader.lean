/-
Values from words. The reader takes one word at a time and keeps the containers
it is inside of in a list, so that it needs no recursion into the text and any
depth of nesting is read.
-/
import VmFleet.Json.Value
import VmFleet.Json.Token

namespace VmFleet.Json

/-- A container part way through: what it holds already, latest first. -/
inductive Frame where
  | item (done : List Json)
  | member (done : List (Option String × Json)) (key : Option String)

/-- What may come next. -/
inductive Reading where
  /-- A value must start here. -/
  | value (inside : List Frame)
  /-- An array has just opened. -/
  | firstItem (inside : List Frame)
  /-- A key must come, or, in an object that has just opened, its end. -/
  | key (first : Bool) (done : List (Option String × Json)) (inside : List Frame)
  | colon (key : Option String) (done : List (Option String × Json)) (inside : List Frame)
  /-- A value is complete. -/
  | complete (v : Json) (inside : List Frame)

namespace Reading

/-- Reads a word where a value must start. -/
def start? (inside : List Frame) : Token → Option Reading
  | .null => some (.complete .null inside)
  | .bool b => some (.complete (.bool b) inside)
  | .int n => some (.complete (.int n) inside)
  | .real => some (.complete .real inside)
  | .str (some s) => some (.complete (.str s) inside)
  | .str none => some (.complete .brokenStr inside)
  | .openArr => some (.firstItem inside)
  | .openObj => some (.key true [] inside)
  | _ => none

def step? : Reading → Token → Option Reading
  | .value inside, t => start? inside t
  | .firstItem inside, .closeArr => some (.complete (.arr []) inside)
  | .firstItem inside, t => start? (.item [] :: inside) t
  | .key true _ inside, .closeObj => some (.complete (.obj []) inside)
  | .key _ done inside, .str k => some (.colon k done inside)
  | .colon k done inside, .colon => some (.value (.member done k :: inside))
  | .complete v (.item done :: inside), .comma => some (.value (.item (v :: done) :: inside))
  | .complete v (.item done :: inside), .closeArr =>
    some (.complete (.arr (v :: done).reverse) inside)
  | .complete v (.member done k :: inside), .comma => some (.key false ((k, v) :: done) inside)
  | .complete v (.member done k :: inside), .closeObj =>
    some (.complete (.obj ((k, v) :: done).reverse) inside)
  | _, _ => none

/-- The value, once it is complete and inside of nothing. -/
def result? : Reading → Option Json
  | .complete v [] => some v
  | _ => none

end Reading

/-- The value that the words spell, if they spell exactly one. -/
def ofTokens? (tokens : List Token) : Option Json :=
  (tokens.foldlM Reading.step? (.value [])).bind Reading.result?

/-- The value a text spells. -/
def parse? (s : String) : Option Json :=
  (Token.lex? s.toList).bind ofTokens?

end VmFleet.Json
