/-
Times as the task table holds them: the text of the instant cut to
microseconds. The table compares times by comparing their texts, which is the
order of time as long as the years have four digits; other years can be
written but not read back.
-/
import VmFleet.Time.Timestamp

namespace VmFleet

structure Stamp where
  text : String
  deriving DecidableEq, Repr, Inhabited

namespace Stamp

def of (t : Instant) : Stamp := ⟨t.microText⟩

def instant? (s : Stamp) : Option Instant :=
  Instant.readMicro? s.text.toList

instance : LE Stamp := ⟨fun a b => a.text ≤ b.text⟩
instance : LT Stamp := ⟨fun a b => a.text < b.text⟩
instance (a b : Stamp) : Decidable (a ≤ b) := inferInstanceAs (Decidable (a.text ≤ b.text))
instance (a b : Stamp) : Decidable (a < b) := inferInstanceAs (Decidable (a.text < b.text))

end Stamp

end VmFleet
