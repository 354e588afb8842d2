import ApiDoc.Json.Value
import ApiDoc.Number.Layout

/-!
# JSON text

Values are written either on one line without blanks, or spread over lines with two blanks of
indentation per level.  Inside strings only the quote, the backslash and the characters below the
blank are escaped.  Numbers that are not finite are written as `null`.
-/

namespace ApiDoc.Json

/-- Two lower-case hexadecimal digits. -/
def twoHexDigits (n : Nat) : List Char :=
  [Nat.digitChar (n / 16 % 16), Nat.digitChar (n % 16)]

/-- How a character stands in a JSON string. -/
def escapedChar (c : Char) : List Char :=
  if c == '"' || c == '\\' then ['\\', c]
  else if c == '\x08' then ['\\', 'b']
  else if c == '\x0c' then ['\\', 'f']
  else if c == '\n' then ['\\', 'n']
  else if c == '\r' then ['\\', 'r']
  else if c == '\t' then ['\\', 't']
  else if c.toNat < 0x20 then ['\\', 'u', '0', '0'] ++ twoHexDigits c.toNat
  else [c]

/-- A string between quotes. -/
def writeText (s : String) : String :=
  String.ofList ('"' :: s.toList.flatMap escapedChar ++ ['"'])

/-- A floating point number, `null` unless it is finite. -/
def writeDecimal : Binary64 → String
  | x@(.finite ..) => x.write .json
  | _ => "null"

/-- What separates the entries of a list or object at the given depth: a new line and its
indentation when the text is spread over lines. -/
def lineBreak (spread : Bool) (depth : Nat) : String :=
  if spread then "\n" ++ String.ofList (List.replicate (2 * depth) ' ') else ""

mutual

/-- The text of a value, `depth` levels inside the whole. -/
def write (spread : Bool) (depth : Nat) : Json → String
  | null => "null"
  | bool b => if b then "true" else "false"
  | integer i => toString i
  | decimal x => writeDecimal x
  | text s => writeText s
  | list [] => "[]"
  | list (item :: items) =>
    "[" ++ lineBreak spread (depth + 1) ++ write spread (depth + 1) item ++
      writeItems spread (depth + 1) items ++ lineBreak spread depth ++ "]"
  | object [] => "\x7b\x7d"
  | object ((name, value) :: fields) =>
    "\x7b" ++ lineBreak spread (depth + 1) ++ writeText name ++ (if spread then ": " else ":") ++
      write spread (depth + 1) value ++
      writeFields spread (depth + 1) fields ++ lineBreak spread depth ++ "\x7d"

/-- The items of a list after the first. -/
def writeItems (spread : Bool) (depth : Nat) : List Json → String
  | [] => ""
  | item :: items =>
    "," ++ lineBreak spread depth ++ write spread depth item ++ writeItems spread depth items

/-- The fields of an object after the first. -/
def writeFields (spread : Bool) (depth : Nat) : List (String × Json) → String
  | [] => ""
  | (name, value) :: fields =>
    "," ++ lineBreak spread depth ++ writeText name ++ (if spread then ": " else ":") ++
      write spread depth value ++ writeFields spread depth fields

end

/-- The value on one line. -/
def compact (value : Json) : String := write false 0 value

/-- The value spread over lines. -/
def pretty (value : Json) : String := write true 0 value

end ApiDoc.Json
