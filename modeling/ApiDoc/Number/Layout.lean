import ApiDoc.Number.Shortest

/-!
# How numbers are written

Digits come from `Binary64.shortest`; a `Layout` decides where they stand.  There are two: numbers
in displayed types and enum values have no exponent and no needless fraction, numbers in JSON text
keep a fraction or an exponent so that they read back as floating point.
-/

namespace ApiDoc

/-- The decisions of a way to write numbers. -/
structure Layout where
  /-- Which powers of ten of the first digit are written without an exponent. -/
  positional : Int → Bool
  /-- What follows the digits of a whole number. -/
  wholeEnd : String
  /-- Which of two equally near decimals is written. -/
  tie : Tie

/-- Numbers as a program would write them: never an exponent, nothing after a whole number, and a
tie between two decimals goes up. -/
def Layout.source : Layout := ⟨fun _ => true, "", .up⟩

/-- Numbers as JSON text has them: an exponent from `10 ^ 16` on and below `10 ^ -5`, a fraction on
whole numbers, and a tie between two decimals goes to the even digit. -/
def Layout.json : Layout := ⟨fun e => -5 ≤ e && e < 16, ".0", .even⟩

namespace Decimal

/-- A run of zeros. -/
def zeros (n : Nat) : String := String.ofList (List.replicate n '0')

/-- The digits with a point where the power of ten puts it. -/
def positional (wholeEnd : String) (digits : List Char) (exponent : Int) : String :=
  let point : Int := digits.length + exponent
  if 0 ≤ exponent then String.ofList digits ++ zeros exponent.toNat ++ wholeEnd
  else if 0 < point then
    String.ofList (digits.take point.toNat) ++ "." ++ String.ofList (digits.drop point.toNat)
  else "0." ++ zeros (-point).toNat ++ String.ofList digits

/-- One digit before the point and the power of ten behind, with its sign. -/
def scientific (digits : List Char) (power : Int) : String :=
  let fraction := if digits.length ≤ 1 then "" else "." ++ String.ofList (digits.drop 1)
  String.ofList (digits.take 1) ++ fraction ++ "e" ++ (if power < 0 then "-" else "+") ++
    toString power.natAbs

/-- A decimal written as the layout says. -/
def write (layout : Layout) (d : Decimal) : String :=
  let digits := Nat.toDigits 10 d.coefficient
  let power : Int := d.exponent + digits.length - 1
  if layout.positional power then positional layout.wholeEnd digits d.exponent
  else scientific digits power

end Decimal

namespace Binary64

/-- A number written as the layout says; the words of the two kinds of non-finite numbers are the
same in every layout. -/
def write (layout : Layout) : Binary64 → String
  | nan => "NaN"
  | infinite negative => if negative then "-inf" else "inf"
  | finite negative m e =>
    (if negative then "-" else "") ++ (shortest layout.tie m e).write layout

/-- A number the way source text would have it.  Whole numbers of up to fifteen digits are written
as integers, so that both zeros are `0`. -/
def sourceText (x : Binary64) : String :=
  match x.toInt? with
  | some i => if i.natAbs < 1000000000000000 then toString i else x.write .source
  | none => x.write .source

end Binary64

end ApiDoc
