import ApiDoc.Json.Decode
import ApiDoc.Number.Layout
import ApiDoc.Number.Reader
import ApiDoc.Text.Blank
import ApiDoc.Text.Quoted

/-!
# Values of enum members

A member's value is a number or a text.  It is read from the literal that initialises the member;
a member without an initialiser continues the numbering of the one before it.
-/

namespace ApiDoc

open Text

/-- The value of an enum member. -/
inductive EnumValue where
  /-- A number. -/
  | number (value : Binary64)
  /-- A text. -/
  | text (value : String)
  deriving DecidableEq, Repr

namespace EnumValue

/-- The value as source text has it. -/
def sourceText : EnumValue → String
  | number x => x.sourceText
  | text s => quoted s

/-! ### Reading literals -/

/-- What stands between two equal quotes around the whole text, as it is written. -/
def unquote? (cs : List Char) : Option (List Char) :=
  match cs with
  | quote :: rest =>
    if quote == '"' || quote == '\'' || quote == '\x60' then
      match rest.reverse with
      | last :: body => if last == quote then some body.reverse else none
      | [] => none
    else none
  | [] => none

/-- A character other than an underscore. -/
def notUnderscore (c : Char) : Bool := c != '_'

/-- A digit of the base, or an underscore between digits. -/
def isSpacedDigit (base : Nat) (c : Char) : Bool := isDigitOf base c || c == '_'

/-- One more than the greatest signed 64-bit word. -/
def signedWordEnd : Nat := 0x8000000000000000

/-- The whole number of some digits of a base; none without a digit, or when no signed 64-bit word
holds it. -/
def wholeNumber? (base : Nat) (cs : List Char) : Option Binary64 :=
  let digits := cs.filter notUnderscore
  if digits.isEmpty || !cs.all (isSpacedDigit base) || signedWordEnd ≤ ofDigits base digits then
    none
  else some (Binary64.ofInt (ofDigits base digits))

/-- Whether a text is a power of ten as a decimal literal ends in one, or nothing. -/
def isPower (cs : List Char) : Bool :=
  match cs with
  | [] => true
  | mark :: rest =>
    let digits := match rest with
      | '+' :: digits | '-' :: digits => digits
      | _ => rest
    (mark == 'e' || mark == 'E') && !digits.isEmpty && digits.all (isDigitOf 10)

/-- Whether a text is a decimal literal: a digit, more digits, perhaps a point with digits and a
power of ten; underscores may stand anywhere behind the first digit but not in the power. -/
def isDecimal (cs : List Char) : Bool :=
  let afterWhole := cs.dropWhile (isSpacedDigit 10)
  let rest := match afterWhole with
    | '.' :: fraction => fraction.dropWhile (isSpacedDigit 10)
    | _ => afterWhole
  match cs with
  | first :: _ => isDigitOf 10 first && isPower rest
  | [] => false

/-- The number of an unsigned literal. -/
def unsigned? (cs : List Char) : Option Binary64 :=
  match cs with
  | '0' :: 'x' :: digits | '0' :: 'X' :: digits => wholeNumber? 16 digits
  | '0' :: 'o' :: digits | '0' :: 'O' :: digits => wholeNumber? 8 digits
  | '0' :: 'b' :: digits | '0' :: 'B' :: digits => wholeNumber? 2 digits
  | _ =>
    if isDecimal cs then Binary64.unsigned? false (cs.filter notUnderscore) else none

/-- The number of a literal with at most one sign, which blanks may follow. -/
def numeral? (cs : List Char) : Option Binary64 :=
  match cs with
  | '-' :: rest => (unsigned? (trimStart rest)).map Binary64.negate
  | '+' :: rest => unsigned? (trimStart rest)
  | _ => unsigned? cs

/-- The value of an initialiser that is one literal. -/
def parse? (initializer : String) : Option EnumValue :=
  let cs := trim initializer.toList
  match unquote? cs with
  | some body => some (text (String.ofList body))
  | none => (numeral? cs).map number

/-! ### JSON -/

/-- The value in JSON. -/
def toJson : EnumValue → Json
  | number x => .decimal x
  | text s => .text s

/-- The value a JSON value stands for. -/
def ofJson? (value : Json) : Option EnumValue :=
  match value.asNumber? with
  | some x => some (number x)
  | none => value.asText?.map text

end EnumValue

/-! ### Numbering -/

/-- Where the numbering of an enum's members stands. -/
structure Numbering where
  /-- The number of the next member without an initialiser; none behind a text. -/
  next : Option Binary64 := some (Binary64.ofInt 0)
  deriving DecidableEq, Repr

namespace Numbering

/-- The value of the next member: its explicit value, else the number that is due, else its own
name. -/
def valueOf (n : Numbering) (name : String) (explicit : Option EnumValue) : EnumValue :=
  match explicit, n.next with
  | some value, _ => value
  | none, some x => .number x
  | none, none => .text name

/-- The numbering behind a member with the given value. -/
def after : EnumValue → Numbering
  | .number x => ⟨some x.plusOne⟩
  | .text _ => ⟨none⟩

/-- The value of the next member, and the numbering behind it. -/
def assign (n : Numbering) (name : String) (explicit : Option EnumValue) : EnumValue × Numbering :=
  let value := n.valueOf name explicit
  (value, after value)

end Numbering

end ApiDoc
