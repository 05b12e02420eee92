/-
IPv4 addresses: 32-bit numbers written as four decimal octets with points
between them. An octet has no leading zero.
-/
import VmFleet.Bounds
import VmFleet.Text.Decimal

namespace VmFleet

/-- An IPv4 address. -/
structure Ipv4 where
  value : Nat
  value_lt : value < bound32
  deriving DecidableEq, Repr

namespace Ipv4

instance : Inhabited Ipv4 := ⟨⟨0, by decide⟩⟩

/-- The address with the low 32 bits of a number. -/
def ofNat (n : Nat) : Ipv4 :=
  ⟨n % bound32, Nat.mod_lt _ (by decide)⟩

instance : LT Ipv4 := ⟨fun a b => a.value < b.value⟩
instance : LE Ipv4 := ⟨fun a b => a.value ≤ b.value⟩
instance (a b : Ipv4) : Decidable (a < b) := inferInstanceAs (Decidable (a.value < b.value))
instance (a b : Ipv4) : Decidable (a ≤ b) := inferInstanceAs (Decidable (a.value ≤ b.value))

theorem ext_value {a b : Ipv4} (h : a.value = b.value) : a = b := by
  cases a; cases b; simp_all

def octets (a : Ipv4) : List Nat :=
  [a.value / 16777216, a.value / 65536 % 256, a.value / 256 % 256, a.value % 256]

def chars (a : Ipv4) : List Char :=
  ['.'].intercalate (a.octets.map Text.decimal)

def text (a : Ipv4) : String :=
  String.ofList a.chars

/-- An octet at the head of a text: one to three digits, no leading zero, at most 255. -/
def readOctet? (cs : List Char) : Option (Nat × List Char) :=
  match Text.spanDigits 3 cs with
  | ([], _) => none
  | ('0' :: _ :: _, _) => none
  | (ds, rest) => if Text.digitsValue ds < 256 then some (Text.digitsValue ds, rest) else none

def readPoint? : List Char → Option (List Char)
  | '.' :: rest => some rest
  | _ => none

def readChars? (cs : List Char) : Option Ipv4 := do
  let (a, cs) ← readOctet? cs
  let cs ← readPoint? cs
  let (b, cs) ← readOctet? cs
  let cs ← readPoint? cs
  let (c, cs) ← readOctet? cs
  let cs ← readPoint? cs
  let (d, cs) ← readOctet? cs
  if cs.isEmpty then some (ofNat (((a * 256 + b) * 256 + c) * 256 + d)) else none

def read? (s : String) : Option Ipv4 :=
  readChars? s.toList

end Ipv4

end VmFleet
