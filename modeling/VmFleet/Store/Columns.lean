/-
The columns of the task table. A row is written as one value for each column, and the
values are read back by their places. Kind and status are words, the parameters are
the text of a JSON object, and times are texts.
-/
import VmFleet.Json.Reader
import VmFleet.Json.Writer
import VmFleet.Store.Basic
import VmFleet.Task.Form

namespace VmFleet

/-- The value of a column. -/
inductive Cell where
  | null
  | integer (n : Int)
  | text (s : String)
  deriving DecidableEq, Repr

namespace Cell

def ofText? : Option String → Cell
  | none => .null
  | some s => .text s

def text? : Cell → Option String
  | .text s => some s
  | _ => none

def nullableText? : Cell → Option (Option String)
  | .null => some none
  | .text s => some (some s)
  | .integer _ => none

def integer? : Cell → Option Int
  | .integer n => some n
  | _ => none

def count? : Cell → Option Nat
  | .integer n => if 0 ≤ n then some n.toNat else none
  | _ => none

def toJson : Cell → Json
  | .null => .null
  | .integer n => .int n
  | .text s => .str s

def ofJson? : Json → Option Cell
  | .null => some .null
  | .int n => some (.integer n)
  | .str s => some (.text s)
  | _ => none

end Cell

/-- Parameters as they are written in a column. -/
def TaskParams.read? (text : String) : Option TaskParams :=
  (Json.parse? text).bind ofJson?

namespace TaskRow

/-- Id, kind, VM, parameters, status, attempts and their bound, the four times, and the error. -/
def cells (row : TaskRow) : List Cell :=
  [.text row.id, .text row.kind.text, .integer row.vmKey, .text row.params.toJson.text,
    .text row.status.text, .integer row.attempts, .integer row.maxAttempts,
    .text row.notBefore.text, .text row.createdAt.text,
    .ofText? (row.startedAt.map Stamp.text), .ofText? (row.completedAt.map Stamp.text),
    .ofText? row.lastError]

/-- The row of the values, unless one of them cannot stand in its column. -/
def ofCells? : List Cell → Option TaskRow
  | [id, kind, vmKey, params, status, attempts, maxAttempts, notBefore, createdAt, startedAt,
      completedAt, lastError] => do
    some {
      id := ← id.text?
      kind := ← kind.text?.bind TaskKind.ofText?
      vmKey := ← vmKey.integer?
      params := ← params.text?.bind TaskParams.read?
      status := ← status.text?.bind TaskStatus.ofText?
      attempts := ← attempts.count?
      maxAttempts := ← maxAttempts.count?
      notBefore := ⟨← notBefore.text?⟩
      createdAt := ⟨← createdAt.text?⟩
      startedAt := (← startedAt.nullableText?).map Stamp.mk
      completedAt := (← completedAt.nullableText?).map Stamp.mk
      lastError := ← lastError.nullableText? }
  | _ => none

end TaskRow

end VmFleet
