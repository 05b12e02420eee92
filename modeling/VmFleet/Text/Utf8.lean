/-
Text from bytes that should be UTF-8. Wherever the bytes leave the encoding, the
longest piece that could still have begun a character becomes one replacement
character.
-/

namespace VmFleet.Text

def replacement : Char := '\ufffd'

/-- How many bytes a character with this first byte has, and the range of its second byte. -/
def leadShape? (b : UInt8) : Option (Nat × UInt8 × UInt8) :=
  if 0xC2 ≤ b && b ≤ 0xDF then some (2, 0x80, 0xBF)
  else if b == 0xE0 then some (3, 0xA0, 0xBF)
  else if b == 0xED then some (3, 0x80, 0x9F)
  else if 0xE1 ≤ b && b ≤ 0xEF then some (3, 0x80, 0xBF)
  else if b == 0xF0 then some (4, 0x90, 0xBF)
  else if 0xF1 ≤ b && b ≤ 0xF3 then some (4, 0x80, 0xBF)
  else if b == 0xF4 then some (4, 0x80, 0x8F)
  else none

/-- The bits a byte adds to its character. -/
def addBits (acc : Nat) (b : UInt8) : Nat :=
  acc * 64 + (b.toNat % 64)

/-- The characters of the bytes; the state holds the bits read of an unfinished character, how many
bytes it lacks, and the range of the next one. -/
def decodeFrom : Option (Nat × Nat × UInt8 × UInt8) → List UInt8 → List Char
  | none, [] => []
  | some _, [] => [replacement]
  | none, b :: rest => start b rest
  | some (acc, lacking, lo, hi), b :: rest =>
    if lo ≤ b && b ≤ hi then
      if lacking ≤ 1 then Char.ofNat (addBits acc b) :: decodeFrom none rest
      else decodeFrom (some (addBits acc b, lacking - 1, 0x80, 0xBF)) rest
    else replacement :: start b rest
where
  start (b : UInt8) (rest : List UInt8) : List Char :=
    if b < 0x80 then Char.ofNat b.toNat :: decodeFrom none rest
    else match leadShape? b with
      | some (size, lo, hi) =>
        decodeFrom (some (b.toNat % Nat.pow 2 (7 - size), size - 1, lo, hi)) rest
      | none => replacement :: decodeFrom none rest

def ofUtf8 (bytes : List UInt8) : String :=
  String.ofList (decodeFrom none bytes)

end VmFleet.Text
