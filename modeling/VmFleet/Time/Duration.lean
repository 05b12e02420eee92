/-
Lengths of time in whole nanoseconds, and their text: the largest of the units
s, ms, µs and ns that fits once, with the exact fraction and no trailing zeros.
-/
import VmFleet.Text.Decimal

namespace VmFleet

structure Duration where
  nanos : Nat
  deriving DecidableEq, Repr, Inhabited

namespace Duration

def zero : Duration := ⟨0⟩

def ofMillis (n : Nat) : Duration := ⟨n * 1000000⟩

def ofSeconds (n : Nat) : Duration := ⟨n * 1000000000⟩

/-- Whole milliseconds, the rest dropped. -/
def millis (d : Duration) : Nat := d.nanos / 1000000

instance : LE Duration := ⟨fun a b => a.nanos ≤ b.nanos⟩
instance : LT Duration := ⟨fun a b => a.nanos < b.nanos⟩
instance (a b : Duration) : Decidable (a ≤ b) := inferInstanceAs (Decidable (a.nanos ≤ b.nanos))
instance (a b : Duration) : Decidable (a < b) := inferInstanceAs (Decidable (a.nanos < b.nanos))
instance : Add Duration := ⟨fun a b => ⟨a.nanos + b.nanos⟩⟩
instance : Min Duration := ⟨fun a b => ⟨min a.nanos b.nanos⟩⟩
instance : Max Duration := ⟨fun a b => ⟨max a.nanos b.nanos⟩⟩

@[simp] theorem nanos_add (a b : Duration) : (a + b).nanos = a.nanos + b.nanos := rfl
@[simp] theorem nanos_min (a b : Duration) : (min a b).nanos = min a.nanos b.nanos := rfl
theorem le_def {a b : Duration} : a ≤ b ↔ a.nanos ≤ b.nanos := Iff.rfl

/-- The fraction `part / 10 ^ places` as digits after a point, or nothing when it is zero. -/
def fractionText (places part : Nat) : List Char :=
  let digits := ((Text.fixedDigits places part).reverse.dropWhile (· == '0')).reverse
  if digits.isEmpty then [] else '.' :: digits

/-- The length in the largest fitting unit, exactly. -/
def chars (d : Duration) : List Char :=
  let n := d.nanos
  if 1000000000 ≤ n then
    Text.decimal (n / 1000000000) ++ fractionText 9 (n % 1000000000) ++ ['s']
  else if 1000000 ≤ n then
    Text.decimal (n / 1000000) ++ fractionText 6 (n % 1000000) ++ ['m', 's']
  else if 1000 ≤ n then
    Text.decimal (n / 1000) ++ fractionText 3 (n % 1000) ++ ['µ', 's']
  else
    Text.decimal n ++ ['n', 's']

def text (d : Duration) : String :=
  String.ofList d.chars

end Duration

end VmFleet
