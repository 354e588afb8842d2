import ApiDoc.Comment.Range
import ApiDoc.Text.Lines
import ApiDoc.Text.Word

/-!
# Doc blocks

A block comment that opens with two stars documents what follows it.  Its text is freed of the
gutter of stars at the start of its lines, and then divided at its tags: a tag is an at sign at the
start of a word, followed by a name, outside of fenced code.  What stands before the first tag is
the summary.
-/

namespace ApiDoc.Comment

open Text

/-- A tag with its text. -/
structure Tag where
  /-- The word behind the at sign. -/
  name : String
  /-- What follows the name, up to the next tag. -/
  text : String
  deriving DecidableEq, Repr

/-- The content of a doc block. -/
structure Block where
  /-- The text before the first tag. -/
  summary : String := ""
  /-- The tags, in order. -/
  tags : List Tag := []
  deriving DecidableEq, Repr, Inhabited

/-- Whether the block has a tag of one of the names. -/
def Block.hasTag (block : Block) (names : List String) : Bool :=
  block.tags.any fun tag => names.contains tag.name

/-! ### The gutter -/

/-- A line without its indentation and the star of the gutter with the one blank behind it, and
without the blanks at its end. -/
def cleanLine (line : List Char) : List Char :=
  trimEnd <| match trimStart line with
    | '*' :: ' ' :: rest => rest
    | '*' :: rest => rest
    | rest => rest

/-- A list without the empty lines at either end. -/
def dropEmptyEnds (ls : List (List Char)) : List (List Char) :=
  ((ls.dropWhile List.isEmpty).reverse.dropWhile List.isEmpty).reverse

/-- The text of a doc block without its gutter and without empty lines at either end. -/
def cleanText (inner : List Char) : List Char :=
  joinLines (dropEmptyEnds ((lines inner).map cleanLine))

/-! ### Fenced code -/

/-- A line that opens or closes fenced code. -/
def isFence (line : List Char) : Bool :=
  match trimStart line with
  | '\x60' :: '\x60' :: '\x60' :: _ => true
  | _ => false

/-- The byte ranges of fenced code: from the start of one fence to the end of the next, or to the
end of the text.  `opened` is where the fence that is still open started. -/
def fencesFrom (opened : Option Nat) (offset : Nat) : List (List Char) → List (Nat × Nat)
  | [] => match opened with
    | some start => [(start, offset)]
    | none => []
  | line :: rest =>
    let next := offset + byteLength line
    if isFence line then
      match opened with
      | some start => (start, next) :: fencesFrom none next rest
      | none => fencesFrom (some offset) next rest
    else fencesFrom opened next rest

/-- The byte ranges of fenced code in a text. -/
def fences (text : List Char) : List (Nat × Nat) := fencesFrom none 0 (linesWithEnds text)

/-- Whether a byte offset lies in one of the ranges. -/
def inFence (ranges : List (Nat × Nat)) (offset : Nat) : Bool :=
  ranges.any fun (start, stop) => start ≤ offset && offset < stop

/-! ### Tags -/

/-- Whether a text starts with a character of a word. -/
def startsWord : List Char → Bool
  | c :: _ => isWord c
  | [] => false

/-- The text before the first tag, and what follows the at sign of each tag up to the next.
`edge` says whether a word may start here: at the start of the text or behind a blank. -/
def pieces (fenced : Nat → Bool) : Nat → Bool → List Char → List Char × List (List Char)
  | _, _, [] => ([], [])
  | offset, edge, c :: cs =>
    let (piece, rest) := pieces fenced (offset + c.utf8Size) (isBlank c) cs
    if c == '@' && edge && startsWord cs && !fenced offset then ([], piece :: rest)
    else (c :: piece, rest)

/-- The tag whose name and text follow its at sign. -/
def Tag.ofPiece (piece : List Char) : Tag where
  name := String.ofList (piece.takeWhile isWord)
  text := String.ofList (trim (piece.dropWhile isWord))

/-- A clean text divided into summary and tags. -/
def Block.ofText (text : List Char) : Block :=
  let (summary, tags) := pieces (inFence (fences text)) 0 true text
  ⟨String.ofList (trim summary), tags.map Tag.ofPiece⟩

/-- The text between the delimiters of a doc block; `none` for any other comment. -/
def docText? (raw : List Char) : Option (List Char) :=
  match raw with
  | '/' :: '*' :: '*' :: inner =>
    match inner.reverse with
    | '/' :: '*' :: body => some body.reverse
    | _ => none
  | _ => none

/-- The content of the comment at a range, if it is a doc block. -/
def Block.ofRange? (text : List Char) (range : Range) : Option Block :=
  match range.kind with
  | .line => none
  | .block => (docText? (range.slice text)).map fun inner => Block.ofText (cleanText inner)

end ApiDoc.Comment
