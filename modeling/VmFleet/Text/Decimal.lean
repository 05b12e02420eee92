/-
Whole numbers as decimal text: the plain form, the form of a fixed width, and
readers that accept ASCII digits alone.
-/

namespace VmFleet.Text

/-- The character of a digit below ten. -/
def digitChar (n : Nat) : Char :=
  Char.ofNat (48 + n % 10)

def digitValue (c : Char) : Nat :=
  c.toNat - 48

/-- The last `width` decimal digits of `n`, leading zeros included. -/
def fixedDigits : (width : Nat) → (n : Nat) → List Char
  | 0, _ => []
  | w + 1, n => fixedDigits w (n / 10) ++ [digitChar n]

/-- The plain decimal form: no sign, no leading zero. -/
def decimal (n : Nat) : List Char :=
  if n < 10 then [digitChar n] else decimal (n / 10) ++ [digitChar n]
termination_by n
decreasing_by omega

/-- At least `width` digits, with leading zeros where the number is shorter. -/
def paddedDigits (width n : Nat) : List Char :=
  if n < Nat.pow 10 width then fixedDigits width n else decimal n

/-- The value of a run of digits. -/
def digitsValue (cs : List Char) : Nat :=
  cs.foldl (fun acc c => acc * 10 + digitValue c) 0

/-- Reads one or more ASCII digits and nothing else. -/
def readDigits? (cs : List Char) : Option Nat :=
  if cs.isEmpty || !cs.all Char.isDigit then none else some (digitsValue cs)

/-- Reads a number below `bound`: digits, after a plus sign if there is one. -/
def readBelow? (bound : Nat) (cs : List Char) : Option Nat :=
  let digits := match cs with
    | '+' :: rest => rest
    | _ => cs
  match readDigits? digits with
  | some n => if n < bound then some n else none
  | none => none

/-- The digits at the head of a text, at most `most` of them, and the rest. -/
def spanDigits : (most : Nat) → List Char → List Char × List Char
  | most + 1, c :: rest =>
    if c.isDigit then
      let (ds, rest) := spanDigits most rest
      (c :: ds, rest)
    else ([], c :: rest)
  | _, cs => ([], cs)

end VmFleet.Text
