/-! The size of JSON numbers: which literals fit a 64-bit word, and which exceed every binary fraction. -/

namespace LimitBook.Json

/-- A number rounded to fifty-three significant bits, a tie going to the even neighbour. -/
def round53 (n : Nat) : Nat :=
  let bits := n.log2 + 1
  if bits ≤ 53 then n
  else
    -- Counted in units of the last significant bit, the number is a quotient and a rest.
    let unit := Nat.pow 2 (bits - 53)
    let quotient := n / unit
    let rest := n % unit
    let up := unit < 2 * rest || (unit == 2 * rest && quotient % 2 == 1)
    (if up then quotient + 1 else quotient) * unit

/-- Half a step above the largest finite binary64 number: from here on rounding leaves the finite numbers. -/
def binary64Limit : Nat := Nat.pow 2 1024 - Nat.pow 2 970

/-- The value of a decimal digit. -/
def digitValue (c : Char) : Nat := c.toNat - '0'.toNat

/-- The number that decimal digits spell. -/
def digitsValue (digits : List Char) : Nat := digits.foldl (fun n c => 10 * n + digitValue c) 0

/-- Leading digits go into a word as long as they fit; of the others only the count matters. -/
def wholeDigits : List Char → Nat → Nat × Nat
  | [], significand => (significand, 0)
  | digit :: digits, significand =>
    let longer := 10 * significand + digitValue digit
    if longer < UInt64.size then wholeDigits digits longer else (significand, digits.length + 1)

/-- Digits after the point go into the same word as long as they fit; the others do not count. -/
def fractionDigits : List Char → Nat → Nat × Nat
  | [], significand => (significand, 0)
  | digit :: digits, significand =>
    let longer := 10 * significand + digitValue digit
    if longer < UInt64.size then
      let (significand, kept) := fractionDigits digits longer
      (significand, kept + 1)
    else (significand, 0)

/--
A literal is too large if its value is not finite in binary64. The value is taken as a rounded word times a
rounded power of ten, and powers of ten beyond the 308th are not considered.
-/
def isTooLarge (whole fraction : List Char) (exponent : Int) : Bool :=
  -- Dropped digits before the point raise the power of ten, and kept ones behind it lower the power.
  let (significand, dropped) := wholeDigits whole 0
  let (significand, kept) := fractionDigits fraction significand
  let scale := (dropped : Int) - kept + exponent
  -- A power below zero only makes a word smaller, and zero stays zero.
  0 ≤ scale && significand != 0
    && (308 < scale || binary64Limit ≤ round53 significand * round53 (Nat.pow 10 scale.toNat))

/-- The integer of a literal, if a signed or unsigned 64-bit word holds it; minus zero is not an integer. -/
def integer64? (negative : Bool) (magnitude : Nat) : Option Int :=
  if negative then
    if 0 < magnitude ∧ magnitude ≤ 0x8000000000000000 then some (-magnitude) else none
  else if magnitude < UInt64.size then some magnitude
  else none

end LimitBook.Json
