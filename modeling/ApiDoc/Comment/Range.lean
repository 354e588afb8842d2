import ApiDoc.Text.Blank
import ApiDoc.Text.Utf8

/-!
# Leading comments

Between a position and the next token of a program lie blanks and comments.  `leadingRanges` finds
the comments among them, as ranges of byte offsets in source order.  At the very start of a text a
byte order mark and a line that starts with `#!` are passed over as well.  The scan ends at the
first character that is neither blank nor the start of a whole comment.
-/

namespace ApiDoc.Comment

open Text

/-- The two forms of a comment. -/
inductive Kind where
  /-- From two slashes to the end of the line. -/
  | line
  /-- From a slash and a star to the first star and slash. -/
  | block
  deriving DecidableEq, Repr, Inhabited

/-- A comment by its place in a text, delimiters included. -/
structure Range where
  /-- Byte offset of its first character. -/
  start : Nat
  /-- Byte offset behind its last character. -/
  stop : Nat
  /-- Its form. -/
  kind : Kind
  deriving DecidableEq, Repr

/-- The text of a range, empty when the range does not fit the text. -/
def Range.slice (range : Range) (text : List Char) : List Char :=
  (slice? text range.start range.stop).getD []

/-- The byte order mark. -/
def byteOrderMark : Char := Char.ofNat 0xFEFF

/-- A character between tokens: a blank, or a stray byte order mark. -/
def isTrivia (c : Char) : Bool := isBlank c || c == byteOrderMark

/-- Whether a character is part of a line. -/
def notLineFeed (c : Char) : Bool := c != '\n'

/-- The characters before the first star and slash, and those behind it. -/
def splitAtClose? : List Char → Option (List Char × List Char)
  | [] => none
  | '*' :: '/' :: rest => some ([], rest)
  | c :: rest => (splitAtClose? rest).map fun (body, after) => (c :: body, after)

theorem length_of_splitAtClose? {cs body rest : List Char}
    (h : splitAtClose? cs = some (body, rest)) : rest.length < cs.length := by
  fun_induction splitAtClose? cs generalizing body with
  | case1 => simp at h
  | case2 r =>
    obtain ⟨-, rfl⟩ : [] = body ∧ r = rest := by simpa using h
    simp only [List.length_cons]
    omega
  | case3 c r _ ih =>
    obtain ⟨⟨b, a⟩, hba, heq⟩ := Option.map_eq_some_iff.1 h
    obtain ⟨-, rfl⟩ : c :: b = body ∧ a = rest := by simpa using heq
    have := ih hba
    simp; omega

/-- The comments at the front of the text `cs`, which starts at byte offset `offset`. -/
def scan (offset : Nat) (cs : List Char) : List Range :=
  let start := offset + byteLength (cs.takeWhile isTrivia)
  match hcs : cs.dropWhile isTrivia with
  | '/' :: '/' :: rest =>
    let stop := start + 2 + byteLength (rest.takeWhile notLineFeed)
    ⟨start, stop, .line⟩ :: scan stop (rest.dropWhile notLineFeed)
  | '/' :: '*' :: rest =>
    match hclose : splitAtClose? rest with
    | some (body, after) =>
      let stop := start + 2 + byteLength body + 2
      ⟨start, stop, .block⟩ :: scan stop after
    | none => []
  | _ => []
termination_by cs.length
decreasing_by
  · have h₁ := (List.dropWhile_sublist (l := cs) isTrivia).length_le
    have h₂ := (List.dropWhile_sublist (l := rest) notLineFeed).length_le
    rw [hcs] at h₁
    simp at h₁ ⊢
    omega
  · have h₁ := (List.dropWhile_sublist (l := cs) isTrivia).length_le
    have h₂ := length_of_splitAtClose? hclose
    rw [hcs] at h₁
    simp at h₁
    omega

/-- The offset and the text behind a byte order mark at the front. -/
def skipMark (text : List Char) : Nat × List Char :=
  match text with
  | c :: rest => if c == byteOrderMark then (c.utf8Size, rest) else (0, text)
  | [] => (0, [])

/-- The offset and the text behind a first line that starts with `#!`, its line feed excluded. -/
def skipShebang (offset : Nat) (text : List Char) : Nat × List Char :=
  match text with
  | '#' :: '!' :: _ =>
    (offset + byteLength (text.takeWhile notLineFeed), text.dropWhile notLineFeed)
  | _ => (offset, text)

/-- The comments between byte offset `pos` and the next token; `none` when `pos` lies inside a
character. -/
def leadingRanges? (text : List Char) (pos : Nat) : Option (List Range) :=
  let pos := min pos (byteLength text)
  if pos = 0 then
    let (afterMark, text) := skipMark text
    let (offset, text) := skipShebang afterMark text
    some (scan offset text)
  else (drop? text pos).map (scan pos)

end ApiDoc.Comment
