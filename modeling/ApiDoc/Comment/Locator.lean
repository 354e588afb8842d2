import ApiDoc.Comment.Block
import ApiDoc.Error

/-!
# Finding the doc block of a declaration

A `Locator` says where comments are and what they hold.  The block that documents a declaration is
the nearest one before it that does not describe the whole file.
-/

namespace ApiDoc.Comment

/-- Tags by which a block describes the file rather than a declaration. -/
def fileMarkers : List String :=
  ["file", "overview", "fileoverview", "fileOverview", "copyright", "license", "licence", "module"]

/-- Whether a block describes the file. -/
def Block.describesFile (block : Block) : Bool := block.hasTag fileMarkers

/-- A way to find comments and to read doc blocks. -/
structure Locator where
  /-- The comments between a byte offset and the next token. -/
  ranges? : List Char → Nat → Option (List Range)
  /-- The content of a comment, if it is a doc block. -/
  block? : List Char → Range → Option Block

namespace Locator

/-- The comments and doc blocks of the language. -/
def standard : Locator := ⟨leadingRanges?, Block.ofRange?⟩

/-- Finds no comment anywhere. -/
def silent : Locator := ⟨fun _ _ => some [], fun _ _ => none⟩

/-- The doc blocks between a byte offset and the next token, in order. -/
def blocksAt (locator : Locator) (text : String) (pos : Nat) : Except Error (List Block) := do
  let chars := text.toList
  let ranges ← Error.orOutOfBounds (locator.ranges? chars pos)
  return ranges.filterMap (locator.block? chars)

/-- The block that documents the declaration whose leading comments start at a byte offset: the
last one that does not describe the file. -/
def read (locator : Locator) (text : String) (pos : Nat) : Except Error (Option Block) := do
  let blocks ← locator.blocksAt text pos
  return blocks.reverse.find? fun block => !block.describesFile

end Locator

end ApiDoc.Comment
