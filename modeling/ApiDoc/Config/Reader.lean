import ApiDoc.Config
import ApiDoc.Error
import ApiDoc.Json.Reader
import ApiDoc.Text.Lines

/-!
# Reading settings

A settings file is TOML.  All settings are truth values at the top level, so of the format only
lines of the form `name = true` can be right: names may be bare or quoted, and blanks, comments and
empty lines may stand around them.  Tables, other kinds of values, unknown names and names that
come twice are errors, whatever form they have.
-/

namespace ApiDoc.Config

open Text

/-- A blank inside a line. -/
def isGap (c : Char) : Bool := c == ' ' || c == '\t'

/-- The text without the blanks at its front. -/
def skipGap (cs : List Char) : List Char := cs.dropWhile isGap

/-- A character of a name without quotes. -/
def isBareChar (c : Char) : Bool := c.isAlphanum || c == '_' || c == '-'

/-- A character that may stand in a comment: no control but the tabulator. -/
def isCommentChar (c : Char) : Bool := c == '\t' || (0x20 ≤ c.toNat && c.toNat != 0x7F)

/-- The character of a code point in hexadecimal, if there is one. -/
def charOfHex? (digits : List Char) : Option Char :=
  let code := ofDigits 16 digits
  if digits.all (isDigitOf 16) && (code < 0xD800 || (0xE000 ≤ code && code < 0x110000)) then
    some (Char.ofNat code)
  else none

/-- The character behind a backslash in a quoted name. -/
def escape? (c : Char) : Option Char :=
  if c == 'b' then some '\x08'
  else if c == 't' then some '\t'
  else if c == 'n' then some '\n'
  else if c == 'f' then some '\x0c'
  else if c == 'r' then some '\r'
  else if c == '"' || c == '\\' then some c
  else none

/-- A name in double quotes: its characters, and the text behind the closing quote. -/
def readQuoted : List Char → Option (List Char × List Char)
  | [] => none
  | '"' :: rest => some ([], rest)
  | '\\' :: 'u' :: a :: b :: c :: d :: rest => do
    let char ← charOfHex? [a, b, c, d]
    let (chars, left) ← readQuoted rest
    return (char :: chars, left)
  | '\\' :: 'U' :: a :: b :: c :: d :: e :: f :: g :: h :: rest => do
    let char ← charOfHex? [a, b, c, d, e, f, g, h]
    let (chars, left) ← readQuoted rest
    return (char :: chars, left)
  | '\\' :: c :: rest => do
    let char ← escape? c
    let (chars, left) ← readQuoted rest
    return (char :: chars, left)
  | c :: rest =>
    if isCommentChar c then do
      let (chars, left) ← readQuoted rest
      return (c :: chars, left)
    else none

/-- A name at the front of the text, and the text behind it. -/
def readName? (cs : List Char) : Option (String × List Char) :=
  match cs with
  | '"' :: rest => (readQuoted rest).map fun (name, left) => (String.ofList name, left)
  | '\'' :: rest =>
    let name := rest.takeWhile fun c => c != '\'' && isCommentChar c
    match rest.dropWhile fun c => c != '\'' && isCommentChar c with
    | '\'' :: left => some (String.ofList name, left)
    | _ => none
  | _ =>
    let name := cs.takeWhile isBareChar
    if name.isEmpty then none else some (String.ofList name, cs.dropWhile isBareChar)

/-- Whether a line ends here, apart from blanks and a comment. -/
def endsLine (cs : List Char) : Bool :=
  match skipGap cs with
  | [] => true
  | '#' :: comment => comment.all isCommentChar
  | _ => false

/-- The setting of a line, if it is not empty; an error when it is neither. -/
def readLine (line : List Char) : Except Error (Option (String × Bool)) :=
  if endsLine line then .ok none
  else
    let setting? : Option (String × Bool) := do
      let (name, rest) ← readName? (skipGap line)
      let '=' :: value := skipGap rest | none
      match Json.expect "true".toList (skipGap value), Json.expect "false".toList (skipGap value) with
      | some rest, _ => if endsLine rest then some (name, true) else none
      | none, some rest => if endsLine rest then some (name, false) else none
      | none, none => none
    match setting? with
    | some setting => .ok (some setting)
    | none => .error .malformedSettings

/-- The settings with those of some lines; `seen` are the names already set. -/
def readLines (config : Config) (seen : List String) : List (List Char) → Except Error Config
  | [] => .ok config
  | line :: rest =>
    match readLine line with
    | .error e => .error e
    | .ok none => readLines config seen rest
    | .ok (some (name, value)) =>
      match config.set? name value with
      | some config =>
        if seen.contains name then .error .malformedSettings
        else readLines config (name :: seen) rest
      | none => .error .malformedSettings

/-- The settings that the text of a settings file gives; a byte order mark at its start is passed
over. -/
def parse (text : String) : Except Error Config :=
  let cs := match text.toList with
    | c :: rest => if c.toNat = 0xFEFF then rest else c :: rest
    | [] => []
  readLines {} [] (lines cs)

/-- The settings of a file, given its text if it could be read. -/
def load (text : Option String) : Except Error Config :=
  match text with
  | some text => parse text
  | none => .error .unreadable

end ApiDoc.Config
