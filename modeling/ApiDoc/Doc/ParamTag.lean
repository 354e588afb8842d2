import ApiDoc.Text.Word

/-!
# Tags about parameters

The text of such a tag is an optional type in braces, the name, which may stand in brackets with a
default behind it, an optional dash, and the summary.
-/

namespace ApiDoc.ParamTag

open Text

/-- A character of a parameter's name: of a word, a dollar sign or a dot. -/
def isNameChar (c : Char) : Bool := isWord c || c == '$' || c == '.'

/-- The text behind a type in braces at its front; `none` when the brace is never closed. -/
def skipType? (cs : List Char) : Option (List Char) :=
  match cs with
  | '\x7b' :: inner =>
    match inner.dropWhile (· != '\x7d') with
    | _ :: rest => some (trimStart rest)
    | [] => none
  | _ => some cs

/-- The text behind a default and a closing bracket at its front. -/
def skipDefault (cs : List Char) : List Char :=
  let rest := match cs with
    | '=' :: value => value.dropWhile (· != ']')
    | _ => cs
  match rest with
  | ']' :: rest => rest
  | _ => rest

/-- The text behind a dash at its front, if blanks follow the dash. -/
def skipDash (cs : List Char) : List Char :=
  match cs with
  | '-' :: c :: rest => if isBlank c then trimStart rest else cs
  | _ => cs

/-- The name and the summary that a tag's text gives; `none` when there is no name where one should
be. -/
def split? (text : String) : Option (String × String) := do
  let rest ← skipType? (trim text.toList)
  let rest := match rest with
    | '[' :: inner => inner
    | _ => rest
  let name := rest.takeWhile isNameChar
  if name.isEmpty then none
  else
    let summary := skipDash (trimStart (skipDefault (rest.dropWhile isNameChar)))
    some (String.ofList name, String.ofList (trim summary))

end ApiDoc.ParamTag
