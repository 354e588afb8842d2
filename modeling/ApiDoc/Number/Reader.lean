import ApiDoc.Number.Binary64

/-!
# Reading numbers

The text of a decimal number is an optional sign, digits with at most one point among or around
them, and an optional power of ten; the words for infinity and for no number are read in any case
of letters.
-/

namespace ApiDoc

/-- The value of a digit in a base of at most sixteen. -/
def digitValue? (base : Nat) (c : Char) : Option Nat :=
  let value? :=
    if '0' ≤ c && c ≤ '9' then some (c.toNat - '0'.toNat)
    else if 'a' ≤ c && c ≤ 'f' then some (c.toNat - 'a'.toNat + 10)
    else if 'A' ≤ c && c ≤ 'F' then some (c.toNat - 'A'.toNat + 10)
    else none
  value?.filter (· < base)

/-- Whether a character is a digit of the base. -/
def isDigitOf (base : Nat) (c : Char) : Bool := (digitValue? base c).isSome

/-- The number that digits of a base stand for; what is no digit counts as zero. -/
def ofDigits (base : Nat) (digits : List Char) : Nat :=
  digits.foldl (fun n c => n * base + (digitValue? base c).getD 0) 0

/-- The integer that a signed run of decimal digits stands for. -/
def signedDigits? (cs : List Char) : Option Int :=
  let (negative, digits) : Bool × List Char := match cs with
    | '-' :: rest => (true, rest)
    | '+' :: rest => (false, rest)
    | _ => (false, cs)
  if digits.isEmpty || !digits.all (isDigitOf 10) then none
  else if negative then some (-(ofDigits 10 digits : Int)) else some (ofDigits 10 digits)

namespace Binary64

/-- An unsigned decimal: digits, a point with digits on at least one side of it, a power of ten. -/
def unsigned? (negative : Bool) (cs : List Char) : Option Binary64 :=
  let whole := cs.takeWhile (isDigitOf 10)
  let afterWhole := cs.dropWhile (isDigitOf 10)
  let (fraction, rest) := match afterWhole with
    | '.' :: more => (more.takeWhile (isDigitOf 10), more.dropWhile (isDigitOf 10))
    | _ => ([], afterWhole)
  let power? : Option Int := match rest with
    | [] => some 0
    | mark :: digits => if mark == 'e' || mark == 'E' then signedDigits? digits else none
  if whole.isEmpty && fraction.isEmpty then none
  else power?.map fun power =>
    ofDecimal negative (ofDigits 10 (whole ++ fraction)) (power - fraction.length)

/-- The number a text stands for. -/
def parse? (text : String) : Option Binary64 :=
  let (negative, cs) : Bool × List Char := match text.toList with
    | '-' :: rest => (true, rest)
    | '+' :: rest => (false, rest)
    | cs => (false, cs)
  let word := cs.map Char.toLower
  if word = "nan".toList then some nan
  else if word = "inf".toList || word = "infinity".toList then some (infinite negative)
  else unsigned? negative cs

end Binary64

end ApiDoc
