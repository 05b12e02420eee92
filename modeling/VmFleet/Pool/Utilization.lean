/-
The share of a pool that is in use, in hundredths of a percent. The quotient is
taken in double precision, each operation rounded to 53 significant bits with
ties to even, and the percentage is then rounded to two places, halves upward.
-/

namespace VmFleet.Utilization

/-- The nearest whole number to `num / den`, a half going to the even neighbour. -/
def nearest (num den : Nat) : Nat :=
  let q := num / den
  let twice := 2 * (num % den)
  if twice < den then q
  else if den < twice then q + 1
  else if q % 2 = 0 then q else q + 1

/-- Two to the fifty-third, one past the largest significand. -/
def significands : Nat := 9007199254740992

/-- A fraction equal to `num / den` rounded to 53 significant bits. -/
def round53 (num den : Nat) : Nat × Nat :=
  if num = 0 then (0, 1)
  else
    -- `num / den` lies strictly between two to the `a - b - 1` and two to the `a - b + 1`
    let a := num.log2
    let b := den.log2
    let scaleUp := if a < b + 53 then b + 53 - a else 0
    let scaleDown := if b + 53 < a then a - (b + 53) else 0
    let n := num * Nat.pow 2 scaleUp
    let d := den * Nat.pow 2 scaleDown
    -- the quotient has 53 or 54 bits
    if n / d < significands then (nearest n d * Nat.pow 2 scaleDown, Nat.pow 2 scaleUp)
    else (nearest n (2 * d) * Nat.pow 2 (scaleDown + 1), Nat.pow 2 scaleUp)

/-- The nearest whole number to `num / den`, a half going up. -/
def nearestUp (num den : Nat) : Nat :=
  (2 * num + den) / (2 * den)

/-- Hundredths of a percent that `part` is of `whole`; zero of nothing. -/
def hundredths (part whole : Nat) : Nat :=
  if whole = 0 then 0
  else
    let (pn, pd) := round53 part 1
    let (wn, wd) := round53 whole 1
    let (qn, qd) := round53 (pn * wd) (pd * wn)
    let (sn, sd) := round53 (qn * 10000) qd
    let (rn, rd) := round53 (nearestUp sn sd) 100
    nearest (rn * 100) rd

end VmFleet.Utilization
