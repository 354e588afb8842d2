import ApiDoc.Json.Value
import ApiDoc.Number.Reader

/-!
# Reading JSON text

The reader takes characters from the front of a list and hands back what it leaves.  It keeps the
order of fields; a name that comes twice keeps its first place and its last value.  A whole number
that no 64-bit word holds, and the negative zero, are floating point.
-/

namespace ApiDoc.Json

/-- A blank between the tokens of JSON text. -/
def isSpace (c : Char) : Bool := c == ' ' || c == '\n' || c == '\r' || c == '\t'

/-- The text without the blanks at its front. -/
def skipSpaces (cs : List Char) : List Char := cs.dropWhile isSpace

/-- The rest of the text behind the given word. -/
def expect : List Char → List Char → Option (List Char)
  | [], cs => some cs
  | w :: word, c :: cs => if w = c then expect word cs else none
  | _ :: _, [] => none

/-- The number that four hexadecimal digits stand for. -/
def fourHex? (a b c d : Char) : Option Nat := do
  return (← digitValue? 16 a) * 4096 + (← digitValue? 16 b) * 256 + (← digitValue? 16 c) * 16 +
    (← digitValue? 16 d)

/-- The character that a pair of surrogates stands for. -/
def joinSurrogates? (high low : Nat) : Option Char :=
  if 0xD800 ≤ high && high < 0xDC00 && 0xDC00 ≤ low && low < 0xE000 then
    some (Char.ofNat (0x10000 + (high - 0xD800) * 0x400 + (low - 0xDC00)))
  else none

/-- The character behind a backslash that is not a code point. -/
def escape? (c : Char) : Option Char :=
  if c == '"' || c == '\\' || c == '/' then some c
  else if c == 'b' then some '\x08'
  else if c == 'f' then some '\x0c'
  else if c == 'n' then some '\n'
  else if c == 'r' then some '\r'
  else if c == 't' then some '\t'
  else none

/-- The characters of a string up to its closing quote, and what follows the quote. -/
def readText : List Char → Option (List Char × List Char)
  | [] => none
  | '"' :: rest => some ([], rest)
  | '\\' :: 'u' :: a :: b :: c :: d :: rest =>
    match fourHex? a b c d with
    | none => none
    | some code =>
      if 0xD800 ≤ code && code < 0xE000 then
        match rest with
        | '\\' :: 'u' :: a' :: b' :: c' :: d' :: rest' => do
          let char ← joinSurrogates? code (← fourHex? a' b' c' d')
          let (chars, left) ← readText rest'
          return (char :: chars, left)
        | _ => none
      else do
        let (chars, left) ← readText rest
        return (Char.ofNat code :: chars, left)
  | '\\' :: c :: rest => do
    let char ← escape? c
    let (chars, left) ← readText rest
    return (char :: chars, left)
  | c :: rest =>
    if c == '\\' || c.toNat < 0x20 then none
    else do
      let (chars, left) ← readText rest
      return (c :: chars, left)

/-- A whole number in the range of 64-bit words, signed or unsigned. -/
def fitsWord (i : Int) : Bool := -0x8000000000000000 ≤ i && i < wordEnd

/-- A number at the front of the text. -/
def readNumber (cs : List Char) : Option (Json × List Char) :=
  let isDigit := isDigitOf 10
  let (negative, cs) : Bool × List Char := match cs with
    | '-' :: rest => (true, rest)
    | _ => (false, cs)
  let whole := cs.takeWhile isDigit
  let afterWhole := cs.dropWhile isDigit
  let fraction? : Option (List Char × List Char) := match afterWhole with
    | '.' :: more => some (more.takeWhile isDigit, more.dropWhile isDigit)
    | _ => none
  let afterFraction := (fraction?.map Prod.snd).getD afterWhole
  let power? : Option (List Char × List Char) := match afterFraction with
    | mark :: more =>
      if mark == 'e' || mark == 'E' then
        let (sign, digits) : List Char × List Char := match more with
          | '-' :: rest => (['-'], rest)
          | '+' :: rest => ([], rest)
          | _ => ([], more)
        some (sign ++ digits.takeWhile isDigit, digits.dropWhile isDigit)
      else none
    | [] => none
  let rest := (power?.map Prod.snd).getD afterFraction
  let fraction := (fraction?.map Prod.fst).getD []
  if whole.isEmpty || (whole.length > 1 && whole.head? == some '0') then none
  else if fraction?.isSome && fraction.isEmpty then none
  else if fraction?.isNone && power?.isNone then
    let size : Int := ofDigits 10 whole
    let value := if negative then -size else size
    if fitsWord value && !(negative && size == 0) then some (integer value, rest)
    else some (decimal (Binary64.ofDecimal negative (ofDigits 10 whole) 0), rest)
  else
    let exponent? : Option Int := match power? with
      | some (digits, _) => signedDigits? digits
      | none => some 0
    exponent?.map fun exponent =>
      (decimal (Binary64.ofDecimal negative (ofDigits 10 (whole ++ fraction))
        (exponent - fraction.length)), rest)

mutual

/-- A value at the front of the text. -/
def readValue : Nat → List Char → Option (Json × List Char)
  | 0, _ => none
  | fuel + 1, cs =>
    match skipSpaces cs with
    | '"' :: rest => (readText rest).map fun (chars, left) => (text (String.ofList chars), left)
    | '[' :: rest =>
      match skipSpaces rest with
      | ']' :: left => some (list [], left)
      | _ => (readItems fuel rest).map fun (items, left) => (list items, left)
    | '\x7b' :: rest =>
      match skipSpaces rest with
      | '\x7d' :: left => some (object [], left)
      | _ => (readFields fuel rest []).map fun (fields, left) => (object fields, left)
    | 't' :: rest => (expect "rue".toList rest).map fun left => (bool true, left)
    | 'f' :: rest => (expect "alse".toList rest).map fun left => (bool false, left)
    | 'n' :: rest => (expect "ull".toList rest).map fun left => (null, left)
    | rest => readNumber rest

/-- The items of a list up to its closing bracket. -/
def readItems : Nat → List Char → Option (List Json × List Char)
  | 0, _ => none
  | fuel + 1, cs => do
    let (item, rest) ← readValue fuel cs
    match skipSpaces rest with
    | ',' :: more =>
      let (items, left) ← readItems fuel more
      return (item :: items, left)
    | ']' :: left => return ([item], left)
    | _ => none

/-- The fields of an object up to its closing brace, put behind those already read. -/
def readFields : Nat → List Char → List (String × Json) →
    Option (List (String × Json) × List Char)
  | 0, _, _ => none
  | fuel + 1, cs, before => do
    let '"' :: quotedName := skipSpaces cs | none
    let (name, afterName) ← readText quotedName
    let ':' :: afterColon := skipSpaces afterName | none
    let (value, rest) ← readValue fuel afterColon
    let fields := putField (String.ofList name) value before
    match skipSpaces rest with
    | ',' :: more => readFields fuel more fields
    | '\x7d' :: left => return (fields, left)
    | _ => none

end

/-- The value a text stands for, if it is one JSON value and nothing else.  Every level of nesting
and every entry takes at least one character, so the length of the text bounds the recursion. -/
def parse? (s : String) : Option Json :=
  let cs := s.toList
  match readValue (2 * cs.length + 2) cs with
  | some (value, rest) => if (skipSpaces rest).isEmpty then some value else none
  | none => none

end ApiDoc.Json
