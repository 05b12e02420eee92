/-
Instants as RFC 3339 text in UTC. `Instant.text` writes as few of 0, 3, 6 or 9
fraction digits as hold the instant; `Instant.microText` always writes six, so
that texts of years 0 to 9999 have one width. `Instant.read?` reads a relaxed
form of the standard: numbers may be shorter, blanks may stand before them and
before `-` and `:`, and the offset may be any below 24 hours.
-/
import VmFleet.Time.Instant
import VmFleet.Text.Blank

namespace VmFleet

namespace Instant

open Text

/-- Four digits; other years have a sign and as many digits as they need. -/
def yearChars (y : Int) : List Char :=
  if 0 ≤ y ∧ y ≤ 9999 then fixedDigits 4 y.toNat
  else (if y < 0 then '-' else '+') :: paddedDigits 4 y.natAbs

/-- Date and time of day to the second. A leap second is second 60 of its minute. -/
def clockChars (t : Instant) : List Char :=
  let d := t.date
  let s := t.secondOfDay
  let second := if 1000000000 ≤ t.nano then s % 60 + 1 else s % 60
  yearChars d.year ++ '-' :: fixedDigits 2 d.month ++ '-' :: fixedDigits 2 d.day ++
    'T' :: fixedDigits 2 (s / 3600) ++ ':' :: fixedDigits 2 (s / 60 % 60) ++
    ':' :: fixedDigits 2 second

/-- Nanoseconds into the written second. -/
def fraction (t : Instant) : Nat :=
  t.nano % 1000000000

def fractionChars (n : Nat) : List Char :=
  if n = 0 then []
  else if n % 1000000 = 0 then '.' :: fixedDigits 3 (n / 1000000)
  else if n % 1000 = 0 then '.' :: fixedDigits 6 (n / 1000)
  else '.' :: fixedDigits 9 n

def chars (t : Instant) : List Char :=
  t.clockChars ++ fractionChars t.fraction ++ ['Z']

def text (t : Instant) : String :=
  String.ofList t.chars

/-- The instant cut to microseconds, with all six fraction digits. -/
def microChars (t : Instant) : List Char :=
  t.clockChars ++ '.' :: fixedDigits 6 (t.fraction / 1000) ++ ['Z']

def microText (t : Instant) : String :=
  String.ofList t.microChars

/-- The instant of a date and time of day, if there is such a date and time. Second 60 is the
leap second after second 59. -/
def ofClock? (d : Date) (hour minute second nano : Nat) : Option Instant :=
  if d.Valid ∧ firstYear ≤ d.year ∧ d.year ≤ lastYear ∧ hour < 24 ∧ minute < 60 ∧ second ≤ 60 then
    let s := if second = 60 then 59 else second
    let n := if second = 60 then nano + 1000000000 else nano
    some ⟨d.toDays * 86400 + (hour * 3600 + minute * 60 + s : Nat), n⟩
  else none

/-- Reads exactly the fixed-width form: a year of four digits and six fraction digits. -/
def readMicro? (cs : List Char) : Option Instant :=
  match cs with
  | [y1, y2, y3, y4, '-', o1, o2, '-', d1, d2, 'T', h1, h2, ':', m1, m2, ':', s1, s2, '.',
      f1, f2, f3, f4, f5, f6, 'Z'] => do
    let year ← readDigits? [y1, y2, y3, y4]
    let month ← readDigits? [o1, o2]
    let day ← readDigits? [d1, d2]
    let hour ← readDigits? [h1, h2]
    let minute ← readDigits? [m1, m2]
    let second ← readDigits? [s1, s2]
    let micro ← readDigits? [f1, f2, f3, f4, f5, f6]
    ofClock? ⟨year, month, day⟩ hour minute second (micro * 1000)
  | _ => none

/-- A number of at most `width` digits after any blanks. -/
def readNumber? (width : Nat) (cs : List Char) : Option (Nat × List Char) :=
  match spanDigits width (trimStart cs) with
  | ([], _) => none
  | (ds, rest) => some (digitsValue ds, rest)

/-- A year: at most four digits, or a sign and any number of them. -/
def readYear? (cs : List Char) : Option (Int × List Char) :=
  let signed (sign : Int) (cs : List Char) : Option (Int × List Char) :=
    match spanDigits cs.length cs with
    | ([], _) => none
    | (ds, rest) => some (sign * digitsValue ds, rest)
  match trimStart cs with
  | '-' :: rest => signed (-1) rest
  | '+' :: rest => signed 1 rest
  | cs => (readNumber? 4 cs).map fun (n, rest) => (n, rest)

/-- A punctuation mark after any blanks. -/
def readMark? (mark : Char) (cs : List Char) : Option (List Char) :=
  match trimStart cs with
  | c :: rest => if c = mark then some rest else none
  | [] => none

/-- The fraction of a second in nanoseconds: nine digits count and further ones are passed over. -/
def readFraction? : List Char → Option (Nat × List Char)
  | '.' :: cs =>
    match spanDigits 9 cs with
    | ([], _) => none
    | (ds, rest) => some (digitsValue ds * Nat.pow 10 (9 - ds.length), rest.dropWhile Char.isDigit)
  | cs => some (0, cs)

/-- An offset from UTC in seconds: `UTC`, `Z`, or hours and minutes after a sign. -/
def readOffset? (cs : List Char) : Option (Int × List Char) :=
  let signed (sign : Int) (cs : List Char) : Option (Int × List Char) :=
    match cs with
    | h1 :: h2 :: rest =>
      match rest.dropWhile (fun c => c == ':' || isBlank c) with
      | m1 :: m2 :: rest =>
        if [h1, h2, m1, m2].all Char.isDigit && m1 < '6' then
          let seconds := digitsValue [h1, h2] * 3600 + digitsValue [m1, m2] * 60
          if seconds < 86400 then some (sign * seconds, rest) else none
        else none
      | _ => none
    | _ => none
  match cs with
  | '+' :: rest => signed 1 rest
  | '-' :: rest => signed (-1) rest
  | '\u2212' :: rest => signed (-1) rest
  | 'Z' :: rest => some (0, rest)
  | 'z' :: rest => some (0, rest)
  | u :: t :: c :: rest =>
    if u.toUpper = 'U' ∧ t.toUpper = 'T' ∧ c.toUpper = 'C' then some (0, rest) else none
  | _ => none

def readChars? (cs : List Char) : Option Instant := do
  let (year, cs) ← readYear? cs
  let cs ← readMark? '-' cs
  let (month, cs) ← readNumber? 2 cs
  let cs ← readMark? '-' cs
  let (day, cs) ← readNumber? 2 cs
  let cs ← match cs with
    | c :: rest => if c = 'T' ∨ c = 't' ∨ c = ' ' then some rest else none
    | [] => none
  let (hour, cs) ← readNumber? 2 cs
  let cs ← readMark? ':' cs
  let (minute, cs) ← readNumber? 2 cs
  let cs ← readMark? ':' cs
  let (second, cs) ← readNumber? 2 cs
  let (nano, cs) ← readFraction? cs
  let (offset, cs) ← readOffset? (trimStart cs)
  if (trimStart cs).isEmpty then
    let wall ← ofClock? ⟨year, month, day⟩ hour minute second nano
    let t : Instant := ⟨wall.second - offset, wall.nano⟩
    if t.InCalendar then some t else none
  else none

/-- The instant a timestamp names, in UTC. -/
def read? (s : String) : Option Instant :=
  readChars? s.toList

end Instant

end VmFleet
