/-
Instants of the UTC clock: seconds since 1970-01-01T00:00:00Z and nanoseconds
into the second. A nanosecond count of a full second or more says that the
instant lies in a leap second that follows. Only years -262143 to 262142 have
instants; arithmetic that leaves them has no result.
-/
import VmFleet.Time.Calendar
import VmFleet.Time.Duration

namespace VmFleet

structure Instant where
  second : Int
  nano : Nat
  deriving DecidableEq, Repr, Inhabited

namespace Instant

instance : LT Instant := ⟨fun a b => a.second < b.second ∨ a.second = b.second ∧ a.nano < b.nano⟩
instance : LE Instant := ⟨fun a b => a.second < b.second ∨ a.second = b.second ∧ a.nano ≤ b.nano⟩

instance (a b : Instant) : Decidable (a < b) :=
  inferInstanceAs (Decidable (a.second < b.second ∨ a.second = b.second ∧ a.nano < b.nano))

instance (a b : Instant) : Decidable (a ≤ b) :=
  inferInstanceAs (Decidable (a.second < b.second ∨ a.second = b.second ∧ a.nano ≤ b.nano))

theorem lt_def {a b : Instant} :
    a < b ↔ a.second < b.second ∨ a.second = b.second ∧ a.nano < b.nano := Iff.rfl

theorem le_def {a b : Instant} :
    a ≤ b ↔ a.second < b.second ∨ a.second = b.second ∧ a.nano ≤ b.nano := Iff.rfl

/-- Nanoseconds since the epoch. -/
def toNanos (t : Instant) : Int :=
  t.second * 1000000000 + t.nano

def ofNanos (n : Int) : Instant :=
  ⟨n / 1000000000, (n % 1000000000).toNat⟩

def ofMillis (n : Int) : Instant :=
  ofNanos (n * 1000000)

def date (t : Instant) : Date :=
  Date.ofDays (t.second / 86400)

/-- Seconds since midnight. -/
def secondOfDay (t : Instant) : Nat :=
  (t.second % 86400).toNat

def firstYear : Int := -262143
def lastYear : Int := 262142

/-- The instant lies in a year the calendar has. -/
def InCalendar (t : Instant) : Prop :=
  firstYear ≤ t.date.year ∧ t.date.year ≤ lastYear

instance (t : Instant) : Decidable t.InCalendar := by unfold InCalendar; infer_instance

/-- The instant `d` later, without regard to the calendar's ends. -/
def after (t : Instant) (d : Duration) : Instant :=
  ofNanos (t.toNanos + d.nanos)

/-- The instant `d` later, if the calendar has it. -/
def after? (t : Instant) (d : Duration) : Option Instant :=
  let u := t.after d
  if u.InCalendar then some u else none

/-- The instant `d` earlier, if the calendar has it. -/
def before? (t : Instant) (d : Duration) : Option Instant :=
  let u := ofNanos (t.toNanos - d.nanos)
  if u.InCalendar then some u else none

/-- How much later `t` is than `u`; zero if it is not later. -/
def since (t u : Instant) : Duration :=
  ⟨(t.toNanos - u.toNanos).toNat⟩

/-- The instant with everything below a microsecond cut off. -/
def cutToMicros (t : Instant) : Instant :=
  ⟨t.second, t.nano / 1000 * 1000⟩

end Instant

end VmFleet
