/-
Public VM ids: `srv-` and eight lower-case hexadecimal digits of a drawn number.
-/
import VmFleet.Text.Quoted

namespace VmFleet

namespace PublicId

/-- The last `width` hexadecimal digits of a number, leading zeros included. -/
def fixedHex : (width : Nat) → (n : Nat) → List Char
  | 0, _ => []
  | w + 1, n => fixedHex w (n / 16) ++ [Text.hexDigits.hexDigit (n % 16)]

def leading : String := "srv-"

/-- The id of a drawn number. -/
def ofDraw (n : Nat) : String :=
  leading ++ String.ofList (fixedHex 8 n)

end PublicId

namespace TaskId

/-- A task id: the drawn number's 32 hexadecimal digits in groups of 8, 4, 4, 4 and 12. -/
def ofDraw (n : Nat) : String :=
  let group (digits below : Nat) : String :=
    String.ofList (PublicId.fixedHex digits (n / Nat.pow 16 below))
  "task-" ++ group 8 24 ++ "-" ++ group 4 20 ++ "-" ++ group 4 16 ++ "-" ++ group 4 12 ++ "-" ++
    group 12 0

end TaskId

end VmFleet
