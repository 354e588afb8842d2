import ApiDoc.Number.Binary64

/-!
# The shortest decimal

Of the decimals that round to a given double the one with the fewest digits is taken, and of those
the nearest to the number itself.  All comparisons are between natural numbers: the two ends of the
interval of reals that round to the number, and the number between them, are scaled to one decimal
grid after the other, from coarse to fine, until one of the two grid points around the number lies
in the interval.
-/

namespace ApiDoc

/-- The decimal number `coefficient * 10 ^ exponent`. -/
structure Decimal where
  /-- Its digits, read as one number. -/
  coefficient : Nat
  /-- The power of ten of its last digit. -/
  exponent : Int
  deriving DecidableEq, Repr

/-- Which of two equally near decimals is taken. -/
inductive Tie where
  /-- The greater. -/
  | up
  /-- The one whose last digit is even. -/
  | even
  deriving DecidableEq, Repr

namespace Binary64

/-- The reals that round to `m * 2 ^ e`, in quarters of `2 ^ e`: the two ends and whether they
belong to the interval.  Below a power of two the doubles lie twice as close. -/
structure Interval where
  /-- The lower end. -/
  low : Nat
  /-- The upper end. -/
  high : Nat
  /-- Whether the ends round to the number as well. -/
  closed : Bool

/-- The interval of the number with the given significand and exponent. -/
def Interval.of (m : Nat) (e : Int) : Interval :=
  ⟨4 * m - (if m = leastSignificand ∧ leastExponent < e then 1 else 2), 4 * m + 2, m % 2 = 0⟩

/-- Whether the fraction `num / den`, measured in quarters, lies in the interval. -/
def Interval.holds (i : Interval) (num den : Nat) : Bool :=
  if i.closed then i.low * den ≤ num && num ≤ i.high * den
  else i.low * den < num && num < i.high * den

/-- The factors `(a, b)` by which `x` quarters of `2 ^ e` are `x * a / b` steps of `10 ^ p`. -/
def gridFactors (e p : Int) : Nat × Nat :=
  (Nat.pow 10 (-p).toNat <<< (e - 2).toNat, Nat.pow 10 p.toNat <<< (2 - e).toNat)

/-- The point of the grid `10 ^ p` that stands for `m * 2 ^ e`, if one of the two points around it
rounds to it. -/
def gridPoint? (tie : Tie) (m : Nat) (e p : Int) : Option Nat :=
  let (a, b) := gridFactors e p
  let interval := Interval.of m e
  let below := 4 * m * a / b
  let belowFits := interval.holds (below * b) a
  let aboveFits := interval.holds ((below + 1) * b) a
  let twice := 8 * m * a
  let middle := (2 * below + 1) * b
  if belowFits && aboveFits then
    if twice < middle then some below
    else if middle < twice then some (below + 1)
    else match tie with
      | .up => some (below + 1)
      | .even => some (if below % 2 = 0 then below else below + 1)
  else if belowFits then some below
  else if aboveFits then some (below + 1)
  else none

/-- The first grid with a point that fits, over `tries` grids from `10 ^ p` down. -/
def firstGrid (tie : Tie) (m : Nat) (e : Int) : Nat → Int → Decimal
  | 0, p => ⟨4 * m * (gridFactors e p).1 / (gridFactors e p).2, p⟩
  | tries + 1, p =>
    match gridPoint? tie m e p with
    | some c => ⟨c, p⟩
    | none => firstGrid tie m e tries (p - 1)

/-- The decimal with the fewest digits that rounds to `m * 2 ^ e`, the nearest of those.  The first
grid is coarser than the number itself, and seventeen digits always suffice. -/
def shortest (tie : Tie) (m : Nat) (e : Int) : Decimal :=
  if m = 0 then ⟨0, 0⟩
  else firstGrid tie m e 24 (((Nat.log2 m : Int) + e + 1) * 30103 / 100000 + 2)

end Binary64

end ApiDoc
