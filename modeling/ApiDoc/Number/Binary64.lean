/-!
# Double precision numbers

The numbers of the documented programs: IEEE binary64, held as sign, significand and power of two
so that every operation is exact integer arithmetic followed by one rounding.

`Binary64.round` is the only place where precision is lost: it takes a fraction to the nearest
double, a tie to the even significand.  All other operations are built on it.
-/

namespace ApiDoc

/-- A double precision number.  `finite negative m e` stands for `m * 2 ^ e`; every operation here
gives the form with `m < 2 ^ 53`, `-1074 ≤ e` and, unless `e = -1074`, `2 ^ 52 ≤ m`. -/
inductive Binary64 where
  /-- Not a number. -/
  | nan
  /-- An infinity of the given sign. -/
  | infinite (negative : Bool)
  /-- A signed finite number. -/
  | finite (negative : Bool) (significand : Nat) (exponent : Int)
  deriving DecidableEq, Repr

namespace Binary64

/-- The least power of two, that of the subnormal numbers. -/
def leastExponent : Int := -1074

/-- The greatest power of two of a finite number. -/
def greatestExponent : Int := 971

/-- The least significand of 53 bits, `2 ^ 52`. -/
def leastSignificand : Nat := 0x10000000000000

/-- One more than the greatest significand, `2 ^ 53`. -/
def significandEnd : Nat := 0x20000000000000

/-- A zero of the given sign. -/
def zero (negative : Bool) : Binary64 := finite negative 0 leastExponent

instance : Inhabited Binary64 := ⟨zero false⟩

/-! ### Rounding -/

/-- A fraction to the nearest natural number, a half to the even neighbour. -/
def roundQuotient (num den : Nat) : Nat :=
  let below := num / den
  let left := 2 * (num % den)
  if left < den then below
  else if den < left then below + 1
  else if below % 2 = 0 then below else below + 1

/-- The fraction `num / den / 2 ^ e`, again as numerator and denominator. -/
def scaleBy (num den : Nat) (e : Int) : Nat × Nat :=
  if 0 ≤ e then (num, den <<< e.toNat) else (num <<< (-e).toNat, den)

/-- The power of two at which `num / den` has a significand of 53 bits, but never below the least
one. -/
def scaleOf (num den : Nat) : Int :=
  let guess : Int := (Nat.log2 num : Int) - Nat.log2 den - 53
  let (n, d) := scaleBy num den guess
  max leastExponent (if significandEnd ≤ n / d then guess + 1 else guess)

/-- The finite number of the given parts, an infinity when its power of two is too great. -/
def ofParts (negative : Bool) (m : Nat) (e : Int) : Binary64 :=
  if greatestExponent < e then infinite negative else finite negative m e

/-- The double nearest to the fraction `num / den`, a tie going to the even significand. -/
def round (negative : Bool) (num den : Nat) : Binary64 :=
  if num = 0 then zero negative
  else
    let e := scaleOf num den
    let (n, d) := scaleBy num den e
    let m := roundQuotient n d
    if m = significandEnd then ofParts negative leastSignificand (e + 1)
    else ofParts negative m e

/-- The double nearest to an integer. -/
def ofInt (i : Int) : Binary64 := round (i < 0) i.natAbs 1

/-- Decimal places beyond which a number is infinite. -/
def mostPlaces : Int := 310

/-- Decimal places below which a number is zero. -/
def leastPlaces : Int := -330

/-- The double nearest to `coefficient * 10 ^ e`.  Powers of ten far outside the range are answered
without being computed. -/
def ofDecimal (negative : Bool) (coefficient : Nat) (e : Int) : Binary64 :=
  let places := ((Nat.toDigits 10 coefficient).length : Int) + e
  if coefficient = 0 then zero negative
  else if mostPlaces < places then infinite negative
  else if places < leastPlaces then zero negative
  else if 0 ≤ e then round negative (coefficient * Nat.pow 10 e.toNat) 1
  else round negative coefficient (Nat.pow 10 (-e).toNat)

/-! ### Arithmetic -/

/-- The number of opposite sign. -/
def negate : Binary64 → Binary64
  | nan => nan
  | infinite negative => infinite !negative
  | finite negative m e => finite (!negative) m e

/-- The sum of a number and one. -/
def plusOne : Binary64 → Binary64
  | nan => nan
  | infinite negative => infinite negative
  | finite negative m e =>
    let unit : Nat := if 0 ≤ e then 1 else 1 <<< (-e).toNat
    let size : Nat := if 0 ≤ e then m <<< e.toNat else m
    let sum : Int := (if negative then -(size : Int) else size) + unit
    round (sum < 0) sum.natAbs unit

/-- The integer a number is equal to, if there is one. -/
def toInt? : Binary64 → Option Int
  | nan | infinite _ => none
  | finite negative m e =>
    let sign : Int := if negative then -1 else 1
    if 0 ≤ e then some (sign * (m <<< e.toNat : Nat))
    else if m % (1 <<< (-e).toNat) = 0 then some (sign * (m >>> (-e).toNat : Nat))
    else none

end Binary64

end ApiDoc
