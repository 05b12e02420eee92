/- The sizes of the numbers that records, options and stored columns are held in. -/

namespace VmFleet

/-- One past the largest number of thirty-one bits: the magnitude of the least signed
number of thirty-two. -/
abbrev bound31 : Nat := 2147483648

/-- One past the largest number of thirty-two bits. -/
abbrev bound32 : Nat := 4294967296

/-- One past the largest number of sixty-three bits: the magnitude of the least signed number
of sixty-four, which is what a stored column holds. -/
abbrev bound63 : Nat := 9223372036854775808

/-- One past the largest number of sixty-four bits. -/
abbrev bound64 : Nat := 18446744073709551616

end VmFleet
