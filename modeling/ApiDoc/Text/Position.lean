import ApiDoc.Text.Utf8

/-!
# Lines and columns

A byte offset is shown as a line and a column, both counted from zero.  Columns count characters;
only an offset inside a character, which has no column of its own, falls back to bytes.
-/

namespace ApiDoc.Text

/-- The byte offsets behind the line feeds of a text that starts at `offset`. -/
def lineStartsFrom (offset : Nat) : List Char → List Nat
  | [] => []
  | c :: cs =>
    let next := offset + c.utf8Size
    if c = '\n' then next :: lineStartsFrom next cs else lineStartsFrom next cs

/-- The byte offsets at which lines start. -/
def lineStarts (text : List Char) : List Nat := 0 :: lineStartsFrom 0 text

/-- The line and column of a byte offset; one behind the end stands for the end. -/
def lineCol (text : List Char) (offset : Nat) : Nat × Nat :=
  let offset := min offset (byteLength text)
  let starts := (lineStarts text).takeWhile (· ≤ offset)
  let lineStart := starts.getLastD 0
  let col := match slice? text lineStart offset with
    | some chars => chars.length
    | none => offset - lineStart
  (starts.length - 1, col)

end ApiDoc.Text
